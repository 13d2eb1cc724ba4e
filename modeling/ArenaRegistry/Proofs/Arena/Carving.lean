import ArenaRegistry.Proofs.Arena.Coverage
import ArenaRegistry.Proofs.Arena.Ledger

/-! What edits do to what is covered. Under the mark that an edit leaves on top, all that was
covered before is covered apart from the last allocation, be that carved anew, resized, or put under
a new mark. -/

namespace ArenaRegistry.Arena

namespace Edit

/-- The edit changes the current mark and leaves those below it. -/
def Stays : Edit → Prop
  | enter | enterOwn _ | fuse _ | cutTo _ => False
  | _ => True

/-- The edit pushes a mark. -/
def Pushes : Edit → Prop
  | enter | enterOwn _ | fuse _ => True
  | _ => False

/-- The edit gives the last allocation another size, after which it is at `address`. -/
def Resizes (a : Arena) (address : Nat) : Edit → Prop
  | extend _ | retract _ => a.top.last = some address
  | replaceBig block => block.start = address
  | _ => False

variable {e : Edit} {a : Arena}

theorem stays_of_carves {span : Span} (h : e.Carves a span) : e.Stays := by
  cases e with
  | bump _ | openChunk _ _ | addBig _ => trivial
  | _ => exact h.elim

theorem pushes_of_enters (h : e.Enters) : e.Pushes := by
  cases e with
  | enter | enterOwn _ => trivial
  | _ => exact h.elim

end Edit

variable {a : Arena} {e : Edit} {below : List Mark}

theorem top_mapTop (h : a.marks = below ++ [a.top]) (f : Mark → Mark) :
    (a.mapTop f).top = f a.top :=
  top_of_marks (marks_mapTop h f)

/-- An edit of the current mark leaves the marks below it. -/
theorem marks_edit_of_stays (h : a.marks = below ++ [a.top]) (hStays : e.Stays) :
    (a.edit e).marks = below ++ [(a.edit e).top] := by
  have hMarks : ∃ m, (a.edit e).marks = below ++ [m] := by
    cases e with
    | refuse size => exact ⟨a.top, h⟩
    | bump n => exact ⟨_, marks_mapTop h _⟩
    | extend n => exact ⟨_, marks_mapTop h _⟩
    | retract n => exact ⟨_, marks_mapTop h _⟩
    | openChunk block n => exact ⟨_, marks_mapTop h _⟩
    | addBig block => exact ⟨_, marks_mapTop h _⟩
    | replaceBig block => exact ⟨_, marks_mapTop h _⟩
    | _ => exact hStays.elim
  obtain ⟨m, hm⟩ := hMarks
  rw [top_of_marks hm]
  exact hm

theorem marks_edit_of_pushes (hPushes : e.Pushes) :
    (a.edit e).marks = a.marks ++ [(a.edit e).top] := by
  have hMarks : ∃ m, (a.edit e).marks = a.marks ++ [m] := by
    cases e with
    | enter => exact ⟨_, marks_pushMark _ _ _⟩
    | enterOwn block => exact ⟨_, marks_pushMark _ _ _⟩
    | fuse n => exact ⟨_, marks_pushMark _ _ _⟩
    | _ => exact hPushes.elim
  obtain ⟨m, hm⟩ := hMarks
  rw [top_of_marks hm]
  exact hm

/-! ### Carving -/

/-- What is carved is the last allocation, and all that was covered remains so without it. -/
structure Adds (a a' : Arena) (span : Span) : Prop where
  last : a'.lastSpan? a'.top = some span
  covers : ∀ s, a.Covers a.top s → a'.Covers (a'.shed a'.top) s

theorem Shaped.adds_bump {n : Nat} (h : a.Shaped) (hPos : 0 < n) (hRoom : n ≤ a.remaining) :
    a.Adds (a.bump n) ⟨a.nextFree, n⟩ := by
  obtain ⟨below, hMarks, -, -⟩ := h.exists_below
  have hTop : (a.bump n).top = { a.top with free := a.top.free + n, last := some a.nextFree } :=
    top_mapTop hMarks _
  have hInside : a.top.free < a.chunk.size := by
    unfold remaining at hRoom
    omega
  have hLast : (a.bump n).top.last =
      some (((a.bump n).chunkAt (a.bump n).top.chunkCount).start + a.top.free) := by
    rw [hTop]
    rfl
  have hNotBig : ((a.bump n).bigAt? (a.bump n).top.bigCount).any
      (·.start == ((a.bump n).chunkAt (a.bump n).top.chunkCount).start + a.top.free) = false := by
    rw [hTop]
    exact h.not_isBig_of_chunk hInside
  refine ⟨?_, fun s hs => ?_⟩
  · rw [lastSpan?_of_chunk hLast hNotBig, hTop]
    show some ⟨a.nextFree, a.top.free + n - a.top.free⟩ = some (⟨a.nextFree, n⟩ : Span)
    rw [Nat.add_sub_cancel_left]
  · rw [shed_of_chunk hLast hNotBig, hTop]
    exact hs.transfer rfl rfl (Nat.le_refl _) (Nat.le_refl _) fun _ => Nat.le_refl _

theorem Shaped.adds_openChunk {block : Span} {n : Nat} (h : a.Shaped)
    (h' : (a.openChunk block n).Shaped) :
    a.Adds (a.openChunk block n) ⟨block.start, n⟩ := by
  obtain ⟨below, hMarks, -, -⟩ := h.exists_below
  have hTop : (a.openChunk block n).top =
      { a.top with chunkCount := a.chunks.length + 1, free := n, last := some block.start } :=
    top_mapTop (a := { a with chunks := a.chunks ++ [block] }) hMarks _
  have hChunk : (a.openChunk block n).chunkAt (a.openChunk block n).top.chunkCount = block := by
    rw [hTop]
    show (a.chunks ++ [block])[a.chunks.length + 1 - 1]?.getD default = block
    simp
  have hMem : block ∈ (a.openChunk block n).chunks := List.mem_concat_self
  have hSizes := fun b hb => (h'.sizes b hb).2
  have hPos := hSizes block (List.mem_append_left _ hMem)
  have hLast : (a.openChunk block n).top.last =
      some (((a.openChunk block n).chunkAt (a.openChunk block n).top.chunkCount).start + 0) := by
    rw [hChunk, hTop]
    rfl
  have hNotBig : ((a.openChunk block n).bigAt? (a.openChunk block n).top.bigCount).any
      (·.start == ((a.openChunk block n).chunkAt (a.openChunk block n).top.chunkCount).start + 0) =
        false := by
    rw [hChunk]
    exact not_big_of_disjoint h'.disjoint hSizes hMem hPos _
  refine ⟨?_, fun s hs => ?_⟩
  · rw [lastSpan?_of_chunk hLast hNotBig, hChunk, hTop]
    rfl
  · have hCount := h.chunks
    have hMore : a.top.chunkCount < a.chunks.length + 1 := by omega
    rw [shed_of_chunk hLast hNotBig, hTop]
    refine hs.transfer ?_ rfl (Nat.le_of_lt hMore) (Nat.le_refl _)
      fun hSame => absurd hSame (Nat.ne_of_lt hMore)
    exact List.take_append_of_le_length (Nat.le_of_eq hCount)

theorem Shaped.adds_addBig {block : Span} (h : a.Shaped) :
    a.Adds (a.addBig block) block := by
  obtain ⟨below, hMarks, -, -⟩ := h.exists_below
  have hTop : (a.addBig block).top =
      { a.top with bigCount := a.bigBlocks.length + 1, last := some block.start } :=
    top_mapTop (a := { a with bigBlocks := a.bigBlocks ++ [block] }) hMarks _
  have hLast : (a.addBig block).top.last = some block.start := by rw [hTop]
  have hBig : (a.addBig block).bigAt? (a.addBig block).top.bigCount = some block := by
    rw [hTop]
    show (if a.bigBlocks.length + 1 = 0 then none
      else (a.bigBlocks ++ [block])[a.bigBlocks.length + 1 - 1]?) = some block
    simp
  refine ⟨lastSpan?_of_big hLast hBig, fun s hs => ?_⟩
  have hCount := h.bigs
  rw [shed_of_big hLast hBig, hTop]
  refine hs.transfer rfl ?_ (Nat.le_refl _) ?_ fun _ => Nat.le_refl _
  · exact List.take_append_of_le_length (Nat.le_of_eq hCount)
  · show a.top.bigCount ≤ a.bigBlocks.length + 1 - 1
    omega

theorem Shaped.adds {span : Span} (h : a.Shaped) (hFits : e.Fits a)
    (hCarves : e.Carves a span) (h' : (a.edit e).Shaped) : a.Adds (a.edit e) span := by
  cases e with
  | bump n =>
    obtain rfl : span = ⟨a.nextFree, n⟩ := hCarves
    exact h.adds_bump hFits.1 hFits.2.1
  | openChunk block n =>
    obtain rfl : span = ⟨block.start, n⟩ := hCarves
    exact h.adds_openChunk h'
  | addBig block =>
    obtain rfl : span = block := hCarves
    exact h.adds_addBig
  | _ => exact hCarves.elim

/-! ### Resizing -/

/-- The last allocation is at an address, and all else that was covered remains so. -/
structure Moves (a a' : Arena) (address : Nat) : Prop where
  last : a'.top.last = some address
  covers : ∀ s, a.Covers (a.shed a.top) s → a'.Covers (a'.shed a'.top) s

/-- The last allocation gets another size in its chunk when only the first free byte moves. -/
theorem Shaped.moves_refill {f : Nat → Nat} {address : Nat} (h : a.Shaped)
    (hLast : a.top.last = some address) (hNotBig : a.isBig address = false) :
    a.Moves (a.mapTop fun m => { m with free := f m.free }) address := by
  obtain ⟨below, hMarks, hSits, -⟩ := h.exists_below
  obtain ⟨offset, rfl, -⟩ := hSits.offset_of_not_isBig hLast hNotBig
  have hTop := top_mapTop hMarks fun m => { m with free := f m.free }
  generalize hArena : a.mapTop (fun m => { m with free := f m.free }) = a' at hTop ⊢
  have hChunks : a'.chunks = a.chunks := by rw [← hArena]; rfl
  have hBigs : a'.bigBlocks = a.bigBlocks := by rw [← hArena]; rfl
  have hChunk : a'.chunkAt a'.top.chunkCount = a.chunk := by
    rw [chunkAt, hChunks, hTop]
    rfl
  have hBig : a'.bigAt? a'.top.bigCount = a.topBig? := by
    rw [bigAt?, hBigs, hTop]
    rfl
  have hLast' : a'.top.last = some ((a'.chunkAt a'.top.chunkCount).start + offset) := by
    rw [hChunk, hTop, hLast]
  have hNotBig' : (a'.bigAt? a'.top.bigCount).any
      (·.start == (a'.chunkAt a'.top.chunkCount).start + offset) = false := by
    rw [hBig, hChunk]
    exact hNotBig
  refine ⟨by rw [hTop, hLast], fun s hs => ?_⟩
  rw [shed_of_chunk (a := a) (m := a.top) hLast hNotBig] at hs
  rw [shed_of_chunk hLast' hNotBig', hTop]
  exact hs.transfer (by rw [hChunks]) (by rw [hBigs]) (Nat.le_refl _) (Nat.le_refl _)
    fun _ => Nat.le_refl _

/-- A big block that takes the place of the last allocation is the last allocation. -/
theorem Shaped.top_replaceBig {last : Nat} (h : a.Shaped) (block : Span)
    (hLast : a.top.last = some last) (hBig : a.isBig last = true) :
    (a.replaceBig block).top = { a.top with last := some block.start } ∧
      (a.replaceBig block).bigAt? (a.replaceBig block).top.bigCount = some block := by
  obtain ⟨below, hMarks, hSits, -⟩ := h.exists_below
  obtain ⟨own, old, hOld, -⟩ := hSits.own_of_isBig hLast hBig
  obtain ⟨hPos, hFound⟩ := bigAt?_eq_some hOld
  have hSlot : a.top.bigCount - 1 < a.bigBlocks.length := (List.getElem?_eq_some_iff.mp hFound).1
  have hTop : (a.replaceBig block).top = { a.top with last := some block.start } :=
    top_mapTop (a := { a with bigBlocks := a.bigBlocks.set (a.top.bigCount - 1) block }) hMarks _
  refine ⟨hTop, ?_⟩
  rw [hTop]
  show (if a.top.bigCount = 0 then none
    else (a.bigBlocks.set (a.top.bigCount - 1) block)[a.top.bigCount - 1]?) = some block
  rw [if_neg (Nat.ne_of_gt hPos), List.getElem?_set_self hSlot]

theorem Shaped.moves_replaceBig {block : Span} {last : Nat} (h : a.Shaped)
    (hLast : a.top.last = some last) (hBig : a.isBig last = true) :
    a.Moves (a.replaceBig block) block.start := by
  obtain ⟨hTop, hBig'⟩ := h.top_replaceBig block hLast hBig
  obtain ⟨below, -, hSits, -⟩ := h.exists_below
  obtain ⟨own, old, hOld, rfl⟩ := hSits.own_of_isBig hLast hBig
  have hLast' : (a.replaceBig block).top.last = some block.start := by rw [hTop]
  refine ⟨hLast', fun s hs => ?_⟩
  rw [shed_of_big (a := a) (m := a.top) hLast hOld] at hs
  rw [shed_of_big hLast' hBig', hTop]
  refine hs.transfer rfl ?_ (Nat.le_refl _) (Nat.le_refl _) fun _ => Nat.le_refl _
  exact List.take_set_of_le (Nat.le_refl _)

theorem Shaped.moves {address : Nat} (h : a.Shaped) (hFits : e.Fits a)
    (hResizes : e.Resizes a address) : a.Moves (a.edit e) address := by
  cases e with
  | extend n =>
    obtain ⟨-, -, last, hLast, hNotBig⟩ := hFits
    obtain rfl : last = address := Option.some.inj (hLast.symm.trans hResizes)
    exact h.moves_refill (f := (· + n)) hLast hNotBig
  | retract n =>
    obtain ⟨last, hLast, hNotBig, -⟩ := hFits
    obtain rfl : last = address := Option.some.inj (hLast.symm.trans hResizes)
    exact h.moves_refill (f := (· - n)) hLast hNotBig
  | replaceBig block =>
    obtain ⟨last, grown, hLast, hBig, -⟩ := hFits
    obtain rfl : block.start = address := hResizes
    exact h.moves_replaceBig hLast hBig
  | _ => exact hResizes.elim

/-! ### Pushing marks -/

/-- A new mark takes bytes that were not covered, and all that was covered remains so under it, even
without the allocation that may come with it. -/
structure Opens (a a' : Arena) : Prop where
  covers : ∀ s, a.Covers a.top s → a'.Covers (a'.shed a'.top) s
  mark : a'.Covers (a'.shed a'.top) (reserved a a')
  apart : ∀ s, a.Covers a.top s → s.Disjoint (reserved a a')

/-- A mark that is pushed in the current chunk takes the next bytes of it. -/
theorem WellFormed.opens_shared {a' : Arena} (h : a.WellFormed) (hRoom : footprint ≤ a.remaining)
    (hChunks : a'.chunks = a.chunks) (hBigs : a'.bigBlocks = a.bigBlocks)
    (hChunkCount : (a'.shed a'.top).chunkCount = a.top.chunkCount)
    (hBigCount : (a'.shed a'.top).bigCount = a.top.bigCount)
    (hFree : (a'.shed a'.top).free = a.top.free + footprint) : a.Opens a' := by
  have hPos : 0 < a.top.chunkCount := h.chunks ▸ h.chunks_pos
  have hFound : a.chunks[a.top.chunkCount - 1]? = some a.chunk :=
    getElem?_chunkAt hPos (Nat.le_of_eq h.chunks)
  have hReserved : reserved a a' = ⟨a.nextFree, footprint⟩ := if_pos hRoom
  have hWithin : (⟨a.nextFree, footprint⟩ : Span).Within a.chunk := by
    unfold remaining at hRoom
    unfold Span.Within Span.stop nextFree
    simp only
    have : 0 < footprint := by decide
    omega
  refine ⟨fun s hs => ?_, ?_, fun s hs => ?_⟩
  · exact hs.transfer (by rw [hChunks]) (by rw [hBigs]) (Nat.le_of_eq hChunkCount.symm)
      (Nat.le_of_eq hBigCount.symm) fun _ => by rw [hFree]; exact Nat.le_add_right _ _
  · rw [hReserved]
    refine .chunk (a.top.chunkCount - 1) a.chunk (by omega) (by rw [hChunks]; exact hFound)
      hWithin ?_
    intro _
    rw [hFree]
    unfold Span.stop nextFree
    simp only
    omega
  · rw [hReserved]
    exact hs.disjoint_chunk h.apart hFound hWithin
      (.inr ⟨Nat.sub_add_cancel hPos, Nat.le_refl _⟩)

theorem WellFormed.opens_own {block : Span} (h : a.WellFormed)
    (hFits : (Edit.enterOwn block).Fits a) (h' : (a.edit (.enterOwn block)).WellFormed) :
    a.Opens (a.edit (.enterOwn block)) := by
  have hCount := h.chunks
  have hSize : footprint ≤ block.size := hFits.2 ▸ h.chunkSize_le
  have hTop : (a.edit (.enterOwn block)).top =
      a.newMark (a.chunks.length + 1) footprint none := top_of_marks (marks_pushMark _ _ _)
  have hShed : (a.edit (.enterOwn block)).shed (a.edit (.enterOwn block)).top =
      a.newMark (a.chunks.length + 1) footprint none := by
    rw [shed_of_none (by rw [hTop]; rfl), hTop]
  have hTake : (a.edit (.enterOwn block)).chunks.take a.top.chunkCount =
      a.chunks.take a.top.chunkCount := List.take_append_of_le_length (Nat.le_of_eq hCount)
  have hFound : (a.edit (.enterOwn block)).chunks[a.chunks.length]? = some block :=
    List.getElem?_concat_length
  have hChunk : (a.edit (.enterOwn block)).chunkAt (a.chunks.length + 1) = block := by
    rw [chunkAt, Nat.add_sub_cancel, hFound]
    rfl
  have hReserved : reserved a (a.edit (.enterOwn block)) = ⟨block.start, footprint⟩ := by
    rw [reserved, if_neg (Nat.not_le.mpr hFits.1), hChunk]
  have hWithin : (⟨block.start, footprint⟩ : Span).Within block := by
    unfold Span.Within Span.stop
    simp only
    omega
  refine ⟨fun s hs => ?_, ?_, fun s hs => ?_⟩
  · rw [hShed]
    refine hs.transfer hTake rfl ?_ (Nat.le_refl _) fun hSame => ?_
    · show a.top.chunkCount ≤ a.chunks.length + 1
      omega
    · have hSame : a.top.chunkCount = a.chunks.length + 1 := hSame
      omega
  · rw [hShed, hReserved]
    exact .chunk a.chunks.length block (Nat.lt_succ_self _) hFound hWithin fun _ => Nat.le_refl _
  · rw [hReserved]
    -- No mark from before counts the new chunk.
    have hCovered : (a.edit (.enterOwn block)).Covers a.top s :=
      hs.transfer hTake rfl (Nat.le_refl _) (Nat.le_refl _) fun _ => Nat.le_refl _
    exact hCovered.disjoint_chunk h'.apart hFound hWithin (.inl (Nat.le_of_eq hCount))

/-- A mark that is carved together with an allocation, and that allocation. -/
theorem Shaped.shed_fuse {n : Nat} (h : a.Shaped) (hFits : (Edit.fuse n).Fits a) :
    (a.edit (.fuse n)).lastSpan? (a.edit (.fuse n)).top =
        some ⟨a.chunk.start + (a.top.free + footprint), n⟩ ∧
      (a.edit (.fuse n)).shed (a.edit (.fuse n)).top =
        { (a.edit (.fuse n)).top with free := a.top.free + footprint } := by
  have hTop : (a.edit (.fuse n)).top = a.newMark a.top.chunkCount (a.top.free + footprint + n)
      (some (a.chunk.start + (a.top.free + footprint))) := top_of_marks (marks_pushMark _ _ _)
  have hInside : a.top.free + footprint < a.chunk.size := by
    have := hFits.1
    have := hFits.2.1
    unfold remaining at this
    omega
  have hLast : (a.edit (.fuse n)).top.last =
      some (((a.edit (.fuse n)).chunkAt (a.edit (.fuse n)).top.chunkCount).start +
        (a.top.free + footprint)) := by
    rw [hTop]
    rfl
  have hNotBig : ((a.edit (.fuse n)).bigAt? (a.edit (.fuse n)).top.bigCount).any
      (·.start == ((a.edit (.fuse n)).chunkAt (a.edit (.fuse n)).top.chunkCount).start +
        (a.top.free + footprint)) = false := by
    rw [hTop]
    exact h.not_isBig_of_chunk hInside
  refine ⟨?_, shed_of_chunk hLast hNotBig⟩
  rw [lastSpan?_of_chunk hLast hNotBig, hTop]
  show some ⟨_, a.top.free + footprint + n - (a.top.free + footprint)⟩ = some (⟨_, n⟩ : Span)
  rw [Nat.add_sub_cancel_left]
  rfl

theorem WellFormed.opens (h : a.WellFormed) (hFits : e.Fits a) (hPushes : e.Pushes)
    (h' : (a.edit e).WellFormed) : a.Opens (a.edit e) := by
  cases e with
  | enter =>
    have hTop : (a.edit .enter).top = a.newMark a.top.chunkCount (a.top.free + footprint) none :=
      top_of_marks (marks_pushMark _ _ _)
    have hShed : (a.edit .enter).shed (a.edit .enter).top = (a.edit .enter).top :=
      shed_of_none (by rw [hTop]; rfl)
    exact h.opens_shared hFits rfl rfl (by rw [hShed, hTop]; rfl) (by rw [hShed, hTop]; rfl)
      (by rw [hShed, hTop]; rfl)
  | enterOwn block => exact h.opens_own hFits h'
  | fuse n =>
    have hTop : (a.edit (.fuse n)).top = a.newMark a.top.chunkCount (a.top.free + footprint + n)
        (some (a.chunk.start + (a.top.free + footprint))) := top_of_marks (marks_pushMark _ _ _)
    have hShed := (h.shed_fuse hFits).2
    have hRoom : footprint ≤ a.remaining := Nat.le_trans (Nat.le_add_left _ _) hFits.2.1
    exact h.opens_shared hRoom rfl rfl (by rw [hShed, hTop]; rfl) (by rw [hShed, hTop]; rfl)
      (by rw [hShed])
  | _ => exact hPushes.elim

theorem lastSpan?_of_enters (h : e.Enters) : (a.edit e).lastSpan? (a.edit e).top = none := by
  have hLast : (a.edit e).top.last = none := by
    cases e with
    | enter => rw [edit, top_of_marks (marks_pushMark _ _ _)]
    | enterOwn block => rw [edit, top_of_marks (marks_pushMark _ _ _)]
    | _ => exact h.elim
  rw [lastSpan?, hLast, Option.map_none]

theorem agrees_of_pushes (hPushes : e.Pushes) :
    a.Agrees (a.edit e) a.chunks.length a.bigBlocks.length := by
  cases e with
  | enter | fuse _ => exact ⟨rfl, rfl, rfl⟩
  | enterOwn block =>
    exact ⟨rfl, List.take_append_of_le_length (Nat.le_refl _), rfl⟩
  | _ => exact hPushes.elim

end ArenaRegistry.Arena
