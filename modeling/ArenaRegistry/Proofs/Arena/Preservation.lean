import ArenaRegistry.Proofs.Arena.Calls
import ArenaRegistry.Proofs.Arena.WellFormed

/-! Every edit that fits keeps the shape of an arena, if the blocks held afterwards share no byte. An
edit changes the current mark, puts a mark on top, or cuts the stack; there is one lemma for each of
these, and each edit is an instance. -/

namespace ArenaRegistry.Arena

/-- The arena with another current mark and other blocks. -/
def retop (a : Arena) (chunks bigs : List Span) (below : List Mark) (m : Mark) : Arena :=
  { a with chunks, bigBlocks := bigs, marks := below ++ [m] }

/-- The arena with one more mark and other chunks. -/
def pushed (a : Arena) (chunks : List Span) (m : Mark) : Arena :=
  { a with chunks, marks := a.marks ++ [m], nextMarkId := a.nextMarkId + 1 }

/-- The mark that a push makes. -/
def newMark (a : Arena) (chunkCount free : Nat) (last : Option Nat) : Mark :=
  ⟨markMagic, a.top.seq + 1, a.nextMarkId, a.id, chunkCount, a.top.bigCount, free, last⟩

variable {a : Arena}

theorem mapTop_eq {below : List Mark} {m : Mark} (chunks bigs : List Span)
    (h : a.marks = below ++ [m]) (f : Mark → Mark) :
    { a with chunks, bigBlocks := bigs }.mapTop f = a.retop chunks bigs below (f m) := by
  have hMarks : ({ a with chunks, bigBlocks := bigs } : Arena).marks = below ++ [m] := h
  rw [retop, ← marks_mapTop hMarks]
  rfl

/-- Changes of the current mark are the same if they make the same of it. -/
theorem mapTop_congr {f g : Mark → Mark} (hMarks : a.marks ≠ [])
    (h : f a.top = g a.top) : a.mapTop f = a.mapTop g := by
  obtain ⟨below, hSplit⟩ := exists_marks_eq hMarks
  have hSame : (a.mapTop f).marks = (a.mapTop g).marks := by
    rw [marks_mapTop hSplit, marks_mapTop hSplit, h]
  show { a with marks := (a.mapTop f).marks } = { a with marks := (a.mapTop g).marks }
  rw [hSame]

/-- A mark with the name of another that sits on the same marks sits there too, if what it counts
and uses fits. -/
theorem Sits.change {a' : Arena} {below : List Mark} {m m' : Mark} (h : a.Sits below m)
    (hArena : a'.id = a.id) (hMagic : m'.magic = m.magic) (hSeq : m'.seq = m.seq)
    (hOwner : m'.owner = m.owner) (hId : m'.id = m.id) (hChunks : m.chunkCount ≤ m'.chunkCount)
    (hBigs : m.bigCount ≤ m'.bigCount) (hWhole : Size.IsWhole m'.free)
    (hLe : m'.free ≤ (a'.chunkAt m'.chunkCount).size)
    (hAbove : m'.chunkCount = (under below).chunkCount → (under below).free + footprint ≤ m'.free)
    (hLast : ∀ address, m'.last = some address → a'.LastOf (under below) m' address) :
    a'.Sits below m' where
  magic := hMagic.trans h.magic
  seq := hSeq.trans h.seq
  owner := by rw [hOwner, hArena, h.owner]
  id_lt lower hLower := hId ▸ h.id_lt lower hLower
  chunks_pos := Nat.lt_of_lt_of_le h.chunks_pos hChunks
  chunks_le := Nat.le_trans h.chunks_le hChunks
  bigs_le := Nat.le_trans h.bigs_le hBigs
  free_whole := hWhole
  free_le := hLe
  above := hAbove
  last := hLast

namespace Shaped

theorem retop {below : List Mark} {m : Mark} {chunks bigs : List Span} (h : a.Shaped)
    (hMarks : a.marks = below ++ [a.top]) (hStacked : a.Stacked below.reverse)
    (hAgrees : a.Agrees (a.retop chunks bigs below m) (under below.reverse).chunkCount
      (under below.reverse).bigCount)
    (hSits : (a.retop chunks bigs below m).Sits below.reverse m) (hId : m.id = a.top.id)
    (hChunks : m.chunkCount = chunks.length) (hBigs : m.bigCount = bigs.length)
    (hSizes : ∀ b ∈ chunks ++ bigs, Size.IsWhole b.size ∧ 0 < b.size)
    (hDisjoint : (chunks ++ bigs).Pairwise Span.Disjoint) : (a.retop chunks bigs below m).Shaped := by
  have hTop : (a.retop chunks bigs below m).top = m := top_of_marks rfl
  have hBottom : ∀ x ∈ (below ++ [m]).head?, x.id = a.bottomId := by
    have := h.bottom
    rw [hMarks] at this
    cases below with
    | nil => rintro x ⟨⟩; rw [hId]; exact this a.top rfl
    | cons lowest rest => exact this
  exact {
    magic := h.magic
    nonempty := by simp [Arena.retop]
    stacked := by
      rw [Arena.retop, List.reverse_append]
      exact ⟨hSits, hStacked.agrees hAgrees⟩
    chunks := by rw [hTop, hChunks]; rfl
    bigs := by rw [hTop, hBigs]; rfl
    next := by rw [hTop, hId]; exact h.next
    bottom := hBottom
    chunkSize_whole := h.chunkSize_whole
    chunkSize_le := h.chunkSize_le
    sizes := hSizes
    disjoint := hDisjoint }

/-- A new mark sits on those there are. -/
theorem sits_newMark {chunks : List Span} {chunkCount free : Nat} {last : Option Nat}
    (h : a.Shaped) (hGrown : a.chunks.length ≤ chunkCount) (hWhole : Size.IsWhole free)
    (hLe : free ≤ ((chunks[chunkCount - 1]?).getD default).size)
    (hAbove : chunkCount = a.top.chunkCount → a.top.free + footprint ≤ free)
    (hLast : ∀ address, last = some address →
      (a.pushed chunks (a.newMark chunkCount free last)).LastOf a.top
        (a.newMark chunkCount free last) address) :
    (a.pushed chunks (a.newMark chunkCount free last)).Sits a.marks.reverse
      (a.newMark chunkCount free last) := by
  obtain ⟨below, hMarks, hSits, -⟩ := h.exists_below
  have hSeq : a.top.seq + 1 = a.marks.reverse.length + 1 := by
    rw [hSits.seq, hMarks]; simp
  have hIds : ∀ lower ∈ a.marks.reverse.head?, lower.id < a.nextMarkId := by
    rw [hMarks, List.reverse_append]
    rintro lower ⟨⟩
    exact h.next
  exact {
    magic := rfl
    seq := hSeq
    owner := rfl
    id_lt := hIds
    chunks_pos := Nat.lt_of_lt_of_le h.chunks_pos hGrown
    chunks_le := by rw [h.under_marks, h.chunks]; exact hGrown
    bigs_le := by rw [h.under_marks]; exact Nat.le_refl _
    free_whole := hWhole
    free_le := hLe
    above := by rw [h.under_marks]; exact hAbove
    last := by rw [h.under_marks]; exact hLast }

theorem pushed {chunks : List Span} {chunkCount free : Nat} {last : Option Nat} (h : a.Shaped)
    (hPrefix : chunks.take a.chunks.length = a.chunks) (hCount : chunkCount = chunks.length)
    (hWhole : Size.IsWhole free) (hLe : free ≤ ((chunks[chunkCount - 1]?).getD default).size)
    (hAbove : chunkCount = a.top.chunkCount → a.top.free + footprint ≤ free)
    (hLast : ∀ address, last = some address →
      (a.pushed chunks (a.newMark chunkCount free last)).LastOf a.top
        (a.newMark chunkCount free last) address)
    (hSizes : ∀ b ∈ chunks ++ a.bigBlocks, Size.IsWhole b.size ∧ 0 < b.size)
    (hDisjoint : (chunks ++ a.bigBlocks).Pairwise Span.Disjoint) :
    (a.pushed chunks (a.newMark chunkCount free last)).Shaped := by
  obtain ⟨below, hMarks, -, -⟩ := h.exists_below
  have hTop : (a.pushed chunks (a.newMark chunkCount free last)).top =
      a.newMark chunkCount free last := top_of_marks rfl
  have hGrown : a.chunks.length ≤ chunks.length := by
    have := congrArg List.length hPrefix
    rw [List.length_take] at this
    omega
  have hBottom : ∀ x ∈ (a.marks ++ [a.newMark chunkCount free last]).head?, x.id = a.bottomId := by
    have := h.bottom
    rw [hMarks] at this ⊢
    cases below with
    | nil => exact this
    | cons lowest rest => exact this
  have hNew := h.sits_newMark (hCount ▸ hGrown) hWhole hLe hAbove hLast
  exact {
    magic := h.magic
    nonempty := by simp [Arena.pushed]
    stacked := by
      rw [Arena.pushed, List.reverse_append]
      refine ⟨hNew, h.stacked.agrees ?_⟩
      rw [h.under_marks, h.chunks]
      exact ⟨rfl, by rw [List.take_length]; exact hPrefix, rfl⟩
    chunks := by rw [hTop]; exact hCount
    bigs := by rw [hTop]; exact h.bigs
    next := by rw [hTop]; exact Nat.lt_succ_self _
    bottom := hBottom
    chunkSize_whole := h.chunkSize_whole
    chunkSize_le := h.chunkSize_le
    sizes := hSizes
    disjoint := hDisjoint }

/-- No edit but a cut touches the blocks that the marks below the current one count. -/
theorem agrees_edit {below : List Mark} {e : Edit} (h : a.Shaped)
    (hSits : a.Sits below.reverse a.top) (hFits : e.Fits a) (hCut : ∀ depth, e ≠ .cutTo depth) :
    a.Agrees (a.edit e) (under below.reverse).chunkCount (under below.reverse).bigCount := by
  have hChunks : (under below.reverse).chunkCount ≤ a.chunks.length := h.chunks ▸ hSits.chunks_le
  have hBigs : (under below.reverse).bigCount ≤ a.bigBlocks.length := h.bigs ▸ hSits.bigs_le
  cases e with
  | refuse _ | bump _ | extend _ | retract _ | enter | fuse _ => exact ⟨rfl, rfl, rfl⟩
  | openChunk block n => exact ⟨rfl, List.take_append_of_le_length hChunks, rfl⟩
  | enterOwn block => exact ⟨rfl, List.take_append_of_le_length hChunks, rfl⟩
  | addBig block => exact ⟨rfl, rfl, List.take_append_of_le_length hBigs⟩
  | replaceBig block =>
    obtain ⟨last, grown, hLast, hBig, -⟩ := hFits
    have hOwn := (hSits.own_of_isBig hLast hBig).1
    exact ⟨rfl, rfl, List.take_set_of_le (by omega)⟩
  | cutTo depth => exact absurd rfl (hCut depth)

/-! ### Changes to the current mark -/

section Retop

variable {below : List Mark}

/-- The current mark may use more or less of its chunk and have another last allocation there. -/
theorem refill {free : Nat} {last : Option Nat} (h : a.Shaped)
    (hMarks : a.marks = below ++ [a.top]) (hSits : a.Sits below.reverse a.top)
    (hStacked : a.Stacked below.reverse) (hWhole : Size.IsWhole free) (hLe : free ≤ a.chunk.size)
    (hAbove : a.top.chunkCount = (under below.reverse).chunkCount →
      (under below.reverse).free + footprint ≤ free)
    (hLast : ∀ address, last = some address →
      a.LastOf (under below.reverse) { a.top with free, last } address) :
    (a.retop a.chunks a.bigBlocks below { a.top with free, last }).Shaped := by
  refine h.retop hMarks hStacked ⟨rfl, rfl, rfl⟩ ?_ rfl h.chunks h.bigs h.sizes h.disjoint
  refine hSits.change rfl rfl rfl rfl rfl (Nat.le_refl _) (Nat.le_refl _) hWhole hLe hAbove ?_
  intro address hAddress
  exact (hLast address hAddress).agrees hSits.chunks_pos ⟨rfl, rfl, rfl⟩

theorem bump {n : Nat} (h : a.Shaped) (hPos : 0 < n) (hRoom : n ≤ a.remaining)
    (hWhole : Size.IsWhole n ∨ n = a.remaining) : (a.bump n).Shaped := by
  obtain ⟨below, hMarks, hSits, hStacked⟩ := h.exists_below
  have hFree := h.free_whole
  have hLe := h.free_le
  have hRest : Size.IsWhole n := by
    rcases hWhole with hWhole | rfl
    · exact hWhole
    · exact h.remaining_whole
  rw [Arena.bump, mapTop_eq a.chunks a.bigBlocks hMarks]
  unfold Arena.remaining at hRoom
  refine h.refill hMarks hSits hStacked ?_ (by omega) ?_ ?_
  · unfold Size.IsWhole at *; omega
  · intro hChunk
    have := hSits.above hChunk
    omega
  · rintro _ ⟨⟩
    have hInside : a.top.free < a.chunk.size := by omega
    exact .chunk a.top.free rfl (h.not_isBig_of_chunk hInside) hFree (Nat.le_add_right _ _) hInside
      hSits.above

theorem extend {n : Nat} (h : a.Shaped) (hWhole : Size.IsWhole n) (hRoom : n ≤ a.remaining) :
    (a.extend n).Shaped := by
  obtain ⟨below, hMarks, hSits, hStacked⟩ := h.exists_below
  have hFree := h.free_whole
  have hLe := h.free_le
  rw [Arena.extend, mapTop_eq a.chunks a.bigBlocks hMarks]
  unfold Arena.remaining at hRoom
  refine h.refill hMarks hSits hStacked ?_ (by omega) ?_ ?_
  · unfold Size.IsWhole at *; omega
  · intro hChunk
    have := hSits.above hChunk
    omega
  · intro address hAddress
    cases hSits.last address hAddress with
    | big block own found start => exact .big block own found start
    | chunk offset eq notBig whole le lt above =>
      exact .chunk offset eq notBig whole (Nat.le_trans le (Nat.le_add_right _ _)) lt above

theorem retract {n last : Nat} (h : a.Shaped) (hLast : a.top.last = some last)
    (hNotBig : a.isBig last = false) (hSize : n ≤ a.sizeOfLast last)
    (hWhole : Size.IsWhole n ∨ Size.IsWhole (a.sizeOfLast last - n)) :
    (a.retract n).Shaped := by
  obtain ⟨below, hMarks, hSits, hStacked⟩ := h.exists_below
  have hFree := h.free_whole
  have hLe := h.free_le
  obtain ⟨offset, rfl, whole, le, lt, hTaken, above⟩ := hSits.offset_of_not_isBig hLast hNotBig
  -- What is given back ends where the last allocation does, so it leaves at least its start.
  rw [hTaken] at hSize hWhole
  have hStays : offset ≤ a.top.free - n := by omega
  rw [Arena.retract, mapTop_eq a.chunks a.bigBlocks hMarks]
  refine h.refill hMarks hSits hStacked ?_ (by omega) ?_ ?_
  · unfold Size.IsWhole at *; omega
  · intro hChunk
    have := above hChunk
    omega
  · intro address hAddress
    obtain rfl : a.chunk.start + offset = address := by
      rw [hLast] at hAddress
      exact Option.some.inj hAddress
    exact .chunk offset rfl hNotBig whole hStays lt above

theorem chunkSizeFor_whole (h : a.Shaped) {n : Nat} (hWhole : Size.IsWhole n) :
    Size.IsWhole (a.chunkSizeFor n) :=
  chunkSizeFor_isWhole h.chunkSize_whole hWhole

/-- Blocks are of whole grains if all but one of them were held before. -/
theorem sizes_of_new {block : Span} {blocks : List Span} (h : a.Shaped)
    (hWhole : Size.IsWhole block.size) (hPos : 0 < block.size)
    (hNew : ∀ b ∈ blocks, b = block ∨ b ∈ a.chunks ∨ b ∈ a.bigBlocks) :
    ∀ b ∈ blocks, Size.IsWhole b.size ∧ 0 < b.size := by
  intro b hb
  rcases hNew b hb with rfl | hChunk | hBig
  · exact ⟨hWhole, hPos⟩
  · exact h.sizes b (List.mem_append_left _ hChunk)
  · exact h.sizes b (List.mem_append_right _ hBig)

theorem sizes_concat_chunk {block : Span} (h : a.Shaped) (hWhole : Size.IsWhole block.size)
    (hPos : 0 < block.size) :
    ∀ b ∈ (a.chunks ++ [block]) ++ a.bigBlocks, Size.IsWhole b.size ∧ 0 < b.size := by
  refine h.sizes_of_new hWhole hPos fun b hb => ?_
  simp only [List.mem_append, List.mem_singleton] at hb
  grind

theorem openChunk {block : Span} {n : Nat} (h : a.Shaped) (hWhole : Size.IsWhole n)
    (hPos : 0 < n) (hRoute : a.route n = .chunk block.size)
    (hDisjoint : (a.openChunk block n).held.Pairwise Span.Disjoint) :
    (a.openChunk block n).Shaped := by
  obtain ⟨below, hMarks, hSits, hStacked⟩ := h.exists_below
  have hHolds : n ≤ block.size := le_of_route_chunk hRoute
  have hSize : Size.IsWhole block.size := by
    rw [← bytes_of_route_chunk hRoute]
    exact h.chunkSizeFor_whole hWhole
  have hAgrees := h.agrees_edit (e := .openChunk block n) hSits ⟨hWhole, hPos, hRoute⟩ nofun
  have hFewer : (under below.reverse).chunkCount ≤ a.chunks.length := h.chunks ▸ hSits.chunks_le
  have hNew : (a.chunks ++ [block])[a.chunks.length + 1 - 1]?.getD default = block := by simp
  rw [Arena.openChunk, mapTop_eq (a.chunks ++ [block]) a.bigBlocks hMarks] at hDisjoint ⊢
  refine h.retop hMarks hStacked ⟨rfl, hAgrees.chunks, rfl⟩ ?_ rfl (by simp) h.bigs
    (h.sizes_concat_chunk hSize (by omega)) hDisjoint
  refine hSits.change rfl rfl rfl rfl rfl ?_ (Nat.le_refl _) hWhole ?_ ?_ ?_
  · show a.top.chunkCount ≤ a.chunks.length + 1
    rw [h.chunks]
    exact Nat.le_succ _
  · show n ≤ ((a.chunks ++ [block])[a.chunks.length + 1 - 1]?.getD default).size
    rw [hNew]
    exact hHolds
  · intro hShared
    have hShared : a.chunks.length + 1 = (under below.reverse).chunkCount := hShared
    omega
  · rintro _ ⟨⟩
    refine .chunk 0 ?_ ?_ rfl (Nat.zero_le _) ?_ ?_
    · show block.start = ((a.chunks ++ [block])[a.chunks.length + 1 - 1]?.getD default).start + 0
      rw [hNew, Nat.add_zero]
    · have hSizes := h.sizes_concat_chunk hSize (by omega)
      exact not_big_of_disjoint hDisjoint (fun b hb => (hSizes b hb).2) List.mem_concat_self
        (show 0 < block.size by omega) _
    · show 0 < ((a.chunks ++ [block])[a.chunks.length + 1 - 1]?.getD default).size
      rw [hNew]
      omega
    · intro hShared
      have hShared : a.chunks.length + 1 = (under below.reverse).chunkCount := hShared
      omega

theorem addBig {block : Span} (h : a.Shaped) (hWhole : Size.IsWhole block.size)
    (hPos : 0 < block.size) (hRoute : a.route block.size = .big)
    (hDisjoint : (a.addBig block).held.Pairwise Span.Disjoint) : (a.addBig block).Shaped := by
  obtain ⟨below, hMarks, hSits, hStacked⟩ := h.exists_below
  have hAgrees := h.agrees_edit (e := .addBig block) hSits ⟨hWhole, hPos, hRoute⟩ nofun
  have hFewer : (under below.reverse).bigCount ≤ a.bigBlocks.length := h.bigs ▸ hSits.bigs_le
  have hSizes : ∀ b ∈ a.chunks ++ (a.bigBlocks ++ [block]), Size.IsWhole b.size ∧ 0 < b.size := by
    refine h.sizes_of_new hWhole hPos fun b hb => ?_
    simp only [List.mem_append, List.mem_singleton] at hb
    grind
  rw [Arena.addBig, mapTop_eq a.chunks (a.bigBlocks ++ [block]) hMarks] at hDisjoint ⊢
  refine h.retop hMarks hStacked ⟨rfl, rfl, hAgrees.bigs⟩ ?_ rfl h.chunks (by simp) hSizes hDisjoint
  refine hSits.change rfl rfl rfl rfl rfl (Nat.le_refl _) ?_ h.free_whole h.free_le hSits.above ?_
  · show a.top.bigCount ≤ a.bigBlocks.length + 1
    rw [h.bigs]
    exact Nat.le_succ _
  · rintro _ ⟨⟩
    refine .big block (Nat.lt_succ_of_le hFewer) ?_ rfl
    simp [Arena.retop, Arena.bigAt?]

theorem replaceBig {block : Span} {last grown : Nat} (h : a.Shaped)
    (hLast : a.top.last = some last) (hBig : a.isBig last = true) (hGrown : Size.IsWhole grown)
    (hSize : block.size = a.sizeOfLast last + grown)
    (hDisjoint : (a.replaceBig block).held.Pairwise Span.Disjoint) :
    (a.replaceBig block).Shaped := by
  obtain ⟨below, hMarks, hSits, hStacked⟩ := h.exists_below
  have hAgrees := h.agrees_edit (e := .replaceBig block) hSits
    ⟨last, grown, hLast, hBig, hGrown, hSize⟩ nofun
  -- The slot that is overwritten is the current mark's own.
  obtain ⟨own, old, hOld, rfl⟩ := hSits.own_of_isBig hLast hBig
  have hMem := bigAt?_mem hOld
  have hCount := h.bigs
  have hOldSize := h.sizes old (List.mem_append_right _ hMem)
  rw [sizeOfLast_of_topBig hOld] at hSize
  have hWhole : Size.IsWhole block.size := by
    have := hOldSize.1
    unfold Size.IsWhole at *
    omega
  have hSizes : ∀ b ∈ a.chunks ++ a.bigBlocks.set (a.top.bigCount - 1) block,
      Size.IsWhole b.size ∧ 0 < b.size := by
    refine h.sizes_of_new hWhole (by omega) fun b hb => ?_
    rcases List.mem_append.mp hb with hb | hb
    · exact .inr (.inl hb)
    · rcases List.mem_or_eq_of_mem_set hb with hb | hb
      · exact .inr (.inr hb)
      · exact .inl hb
  rw [Arena.replaceBig,
    mapTop_eq a.chunks (a.bigBlocks.set (a.top.bigCount - 1) block) hMarks] at hDisjoint ⊢
  refine h.retop hMarks hStacked ⟨rfl, rfl, hAgrees.bigs⟩ ?_ rfl h.chunks (by simpa using hCount)
    hSizes hDisjoint
  refine hSits.change rfl rfl rfl rfl rfl (Nat.le_refl _) (Nat.le_refl _) h.free_whole h.free_le
    hSits.above ?_
  rintro _ ⟨⟩
  refine .big block own ?_ rfl
  have hSlot : a.top.bigCount - 1 < a.bigBlocks.length := by omega
  simp [Arena.retop, Arena.bigAt?, show a.top.bigCount ≠ 0 by omega, hSlot]

end Retop

/-! ### New marks -/

theorem enter (h : a.Shaped) (hRoom : footprint ≤ a.remaining) :
    (a.edit .enter).Shaped := by
  have hFree := h.free_whole
  have hLe := h.free_le
  unfold Arena.remaining at hRoom
  refine h.pushed (List.take_length) h.chunks ?_ ?_ (fun _ => Nat.le_refl _) nofun
    h.sizes h.disjoint
  · unfold Size.IsWhole footprint at *; omega
  · show a.top.free + footprint ≤ a.chunk.size
    omega

theorem enterOwn {block : Span} (h : a.Shaped) (hSize : block.size = a.chunkSize)
    (hDisjoint : (a.edit (.enterOwn block)).held.Pairwise Span.Disjoint) :
    (a.edit (.enterOwn block)).Shaped := by
  have hWhole := h.chunkSize_whole
  have hLe := h.chunkSize_le
  have hNew : (a.chunks ++ [block])[a.chunks.length + 1 - 1]?.getD default = block := by simp
  refine h.pushed List.take_left (by simp [Arena.addChunk]) rfl ?_ ?_ nofun
    (h.sizes_concat_chunk (hSize ▸ hWhole) ?_) hDisjoint
  · show footprint ≤ ((a.chunks ++ [block])[a.chunks.length + 1 - 1]?.getD default).size
    rw [hNew, hSize]
    exact hLe
  · have := h.chunks
    omega
  · unfold footprint at hLe
    omega

theorem fuse {n : Nat} (h : a.Shaped) (hPos : 0 < n) (hRoom : n + footprint ≤ a.remaining)
    (hWhole : Size.IsWhole n ∨ n + footprint = a.remaining) : (a.edit (.fuse n)).Shaped := by
  have hFree := h.free_whole
  have hLe := h.free_le
  have hRest : Size.IsWhole n := by
    rcases hWhole with hWhole | hRest
    · exact hWhole
    · have := h.remaining_whole
      unfold Size.IsWhole footprint at *
      omega
  unfold Arena.remaining at hRoom
  refine h.pushed List.take_length h.chunks ?_ ?_ ?_ ?_ h.sizes h.disjoint
  · unfold Size.IsWhole footprint at *; omega
  · show a.top.free + footprint + n ≤ a.chunk.size
    omega
  · intro _
    omega
  · rintro _ ⟨⟩
    have hInside : a.top.free + footprint < a.chunk.size := by omega
    refine .chunk (a.top.free + footprint) rfl (h.not_isBig_of_chunk hInside) ?_
      (Nat.le_add_right _ _) hInside (fun _ => Nat.le_refl _)
    unfold Size.IsWhole footprint at *
    omega

end Shaped

/-! ### Cutting the stack -/

/-- The marks that a cut leaves are the last ones of the stack, read from its top. -/
theorem reverse_marks_cutTo (a : Arena) (depth : Nat) :
    (a.cutTo depth).marks.reverse = a.marks.reverse.drop (a.marks.length - (depth + 1)) := by
  rw [Arena.cutTo, List.reverse_take]

theorem agrees_cutTo (a : Arena) (depth : Nat) :
    a.Agrees (a.cutTo depth) (a.markAt depth).chunkCount (a.markAt depth).bigCount :=
  ⟨rfl, by simp [Arena.cutTo, List.take_take], by simp [Arena.cutTo, List.take_take]⟩

/-- A cut leaves the mark at its depth as the current one. -/
theorem marks_cutTo_concat {depth : Nat} (h : depth < a.marks.length) :
    (a.cutTo depth).marks = a.marks.take depth ++ [a.markAt depth] := by
  rw [Arena.cutTo, Arena.markAt, List.getElem?_eq_getElem h, Option.getD_some,
    List.take_append_getElem h]

namespace Shaped

theorem cutTo {depth : Nat} (h : a.Shaped) (hDepth : depth ≤ a.depth) :
    (a.cutTo depth).Shaped := by
  have hLength : depth < a.marks.length := by
    rw [h.length_marks]
    omega
  have hKept := reverse_marks_cutTo a depth
  have hSplit := marks_cutTo_concat hLength
  have hTop : (a.cutTo depth).top = a.markAt depth := top_of_marks hSplit
  have hUnderKept : under (a.cutTo depth).marks.reverse = a.markAt depth := by
    rw [hSplit, under_reverse_concat]
  obtain ⟨hChunks, hBigs, hId⟩ := h.stacked.drop_le (a.marks.length - (depth + 1))
  rw [← hKept, hUnderKept, h.under_marks] at hChunks hBigs hId
  have hSublist : (a.cutTo depth).held.Sublist a.held :=
    (List.take_sublist _ _).append (List.take_sublist _ _)
  exact {
    magic := h.magic
    nonempty := by rw [hSplit]; simp
    stacked := by
      have hStacked := h.stacked.drop (a.marks.length - (depth + 1))
      rw [← hKept] at hStacked
      exact hStacked.agrees (hUnderKept ▸ agrees_cutTo a depth)
    chunks := by
      rw [hTop, Arena.cutTo, List.length_take, ← h.chunks]
      exact (Nat.min_eq_left hChunks).symm
    bigs := by
      rw [hTop, Arena.cutTo, List.length_take, ← h.bigs]
      exact (Nat.min_eq_left hBigs).symm
    next := by rw [hTop]; exact Nat.lt_of_le_of_lt hId h.next
    bottom := by
      intro m hm
      refine h.bottom m ?_
      rwa [Arena.cutTo, List.head?_take, if_neg (Nat.succ_ne_zero depth)] at hm
    chunkSize_whole := h.chunkSize_whole
    chunkSize_le := h.chunkSize_le
    sizes := fun b hb => h.sizes b (hSublist.subset hb)
    disjoint := h.disjoint.sublist hSublist }

/-- Every edit that fits keeps the shape of an arena, if the blocks held afterwards share no byte. -/
theorem edit {e : Edit} (h : a.Shaped) (hFits : e.Fits a)
    (hDisjoint : (a.edit e).held.Pairwise Span.Disjoint) : (a.edit e).Shaped := by
  cases e with
  | refuse size => exact h
  | bump n => exact h.bump hFits.1 hFits.2.1 hFits.2.2
  | extend n => exact h.extend hFits.1 hFits.2.1
  | retract n =>
    obtain ⟨last, hLast, hNotBig, hSize, hWhole⟩ := hFits
    exact h.retract hLast hNotBig hSize hWhole
  | openChunk block n => exact h.openChunk hFits.1 hFits.2.1 hFits.2.2 hDisjoint
  | addBig block => exact h.addBig hFits.1 hFits.2.1 hFits.2.2 hDisjoint
  | replaceBig block =>
    obtain ⟨last, grown, hLast, hBig, hWhole, hSize⟩ := hFits
    exact h.replaceBig hLast hBig hWhole hSize hDisjoint
  | enter => exact h.enter hFits
  | enterOwn block => exact h.enterOwn hFits.2 hDisjoint
  | fuse n => exact h.fuse hFits.1 hFits.2.1 hFits.2.2
  | cutTo depth => exact h.cutTo hFits

end Shaped

theorem shaped_fresh {id chunkSize start : Nat} {flags : Flags}
    (hWhole : Size.IsWhole chunkSize) (hSize : footprint ≤ chunkSize) :
    (fresh id chunkSize flags start).Shaped where
  magic := rfl
  nonempty := nofun
  stacked := by
    have hBottom : (fresh id chunkSize flags start).Sits []
        ⟨markMagic, 1, 0, id, 1, 0, footprint, none⟩ :=
      { magic := rfl
        seq := rfl
        owner := rfl
        id_lt := nofun
        chunks_pos := Nat.one_pos
        chunks_le := Nat.zero_le _
        bigs_le := Nat.zero_le _
        free_whole := (by decide : Size.IsWhole footprint)
        free_le := hSize
        above := nofun
        last := nofun }
    exact ⟨hBottom, trivial⟩
  chunks := rfl
  bigs := rfl
  next := Nat.one_pos
  bottom := by rintro m ⟨⟩; rfl
  chunkSize_whole := hWhole
  chunkSize_le := hSize
  sizes := by
    intro b hb
    obtain rfl := List.mem_singleton.mp hb
    exact ⟨hWhole, Nat.lt_of_lt_of_le (by decide) hSize⟩
  disjoint := List.pairwise_singleton _ _

end ArenaRegistry.Arena
