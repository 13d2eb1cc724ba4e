import ArenaRegistry.Arena.Lifetime
import ArenaRegistry.Arena.Op

/-! An arena that panics and one that does not, side by side. They work on two sources that answer
alike, and they are in the same state. Whatever function on worlds is applied to both, it answers
the same and leaves them in the same state again, also where it fails: the wish to panic is heeded
only when the answer is reported. -/

namespace ArenaRegistry.Arena

/-- Sources that answer alike, as long as their states are related. -/
structure BlockSource.Alike {σ τ : Type} (R : σ → τ → Prop) (src : BlockSource σ)
    (src' : BlockSource τ) : Prop where
  request : ∀ {s s'}, R s s' → ∀ n, (src.request n s).1 = (src'.request n s').1 ∧
    R (src.request n s).2 (src'.request n s').2
  release : ∀ {s s'}, R s s' → ∀ block, R (src.release block s) (src'.release block s')

/-- The arena under another number and with the wish to panic. -/
def armed (a : Arena) (id : Nat) : Arena :=
  { a with id, flags := .ofPanics true, marks := a.marks.map fun m => { m with owner := id } }

/-- Handles of the same mark of two arenas, or of neither arena. -/
structure Handle.Alike (id id' : Nat) (h h' : Handle) : Prop where
  depth : h'.depth = h.depth
  mark : h'.id = h.id
  own : h'.owner = id' ↔ h.owner = id

variable {id id' : Nat} {a : Arena}

/-! ### Arenas -/

theorem armed_top {β : Type} {f : Mark → β} (h : ∀ m, f { m with owner := id } = f m) :
    f (a.armed id).top = f a.top := by
  simp only [top, armed, List.getLast?_map]
  cases a.marks.getLast? with
  | none => rfl
  | some m => exact h m

theorem armed_markAt {β : Type} {f : Mark → β} (h : ∀ m, f { m with owner := id } = f m)
    (depth : Nat) : f ((a.armed id).markAt depth) = f (a.markAt depth) := by
  simp only [markAt, armed, List.getElem?_map]
  cases a.marks[depth]? with
  | none => rfl
  | some m => exact h m

section Armed

variable (a : Arena) (id : Nat)

@[simp] theorem armed_free : (a.armed id).top.free = a.top.free := armed_top fun _ => rfl
@[simp] theorem armed_last : (a.armed id).top.last = a.top.last := armed_top fun _ => rfl
@[simp] theorem armed_seq : (a.armed id).top.seq = a.top.seq := armed_top fun _ => rfl

@[simp] theorem armed_chunkCount : (a.armed id).top.chunkCount = a.top.chunkCount :=
  armed_top fun _ => rfl

@[simp] theorem armed_bigCount : (a.armed id).top.bigCount = a.top.bigCount :=
  armed_top fun _ => rfl

@[simp] theorem armed_chunk : (a.armed id).chunk = a.chunk := by
  rw [chunk, armed_chunkCount]
  rfl

@[simp] theorem armed_topBig? : (a.armed id).topBig? = a.topBig? := by
  rw [topBig?, armed_bigCount]
  rfl

@[simp] theorem armed_remaining : (a.armed id).remaining = a.remaining := by simp [remaining]
@[simp] theorem armed_nextFree : (a.armed id).nextFree = a.nextFree := by simp [nextFree]

@[simp] theorem armed_isBig (address : Nat) : (a.armed id).isBig address = a.isBig address := by
  simp [isBig]

@[simp] theorem armed_sizeOfLast (address : Nat) :
    (a.armed id).sizeOfLast address = a.sizeOfLast address := by
  simp [sizeOfLast]

@[simp] theorem armed_route (n : Nat) : (a.armed id).route n = a.route n := by
  simp only [route, armed_remaining]
  rfl

@[simp] theorem armed_fitsFrame (n : Nat) : (a.armed id).fitsFrame n = a.fitsFrame n := by
  simp [fitsFrame]

@[simp] theorem armed_depth : (a.armed id).depth = a.depth := by simp [depth, armed]

@[simp] theorem armed_blocksAbove (depth : Nat) :
    (a.armed id).blocksAbove depth = a.blocksAbove depth := by
  have hBigs : ((a.armed id).markAt depth).bigCount = (a.markAt depth).bigCount :=
    armed_markAt (fun _ => rfl) depth
  have hChunks : ((a.armed id).markAt depth).chunkCount = (a.markAt depth).chunkCount :=
    armed_markAt (fun _ => rfl) depth
  simp only [blocksAbove, hBigs, hChunks]
  rfl

theorem armed_cutTo (depth : Nat) : (a.armed id).cutTo depth = (a.cutTo depth).armed id := by
  have hBigs : ((a.armed id).markAt depth).bigCount = (a.markAt depth).bigCount :=
    armed_markAt (fun _ => rfl) depth
  have hChunks : ((a.armed id).markAt depth).chunkCount = (a.markAt depth).chunkCount :=
    armed_markAt (fun _ => rfl) depth
  simp only [cutTo, hBigs, hChunks]
  simp [armed, List.map_take]

theorem map_modify {α β : Type} {f : α → α} {f' : β → β} {g : α → β} (h : ∀ x, g (f x) = f' (g x))
    (xs : List α) (i : Nat) : (xs.map g).modify i f' = (xs.modify i f).map g := by
  induction xs generalizing i with
  | nil => cases i <;> rfl
  | cons x xs ih =>
    cases i with
    | zero => simp [h]
    | succ i => simpa using ih i

theorem armed_mapTop {f : Mark → Mark}
    (h : ∀ m, f { m with owner := id } = { f m with owner := id }) :
    (a.armed id).mapTop f = (a.mapTop f).armed id := by
  simp only [mapTop, armed, List.length_map]
  rw [map_modify fun m => (h m).symm]

theorem armed_bump (n : Nat) : (a.armed id).bump n = (a.bump n).armed id := by
  rw [bump, armed_nextFree]
  exact a.armed_mapTop id fun _ => rfl

theorem armed_extend (n : Nat) : (a.armed id).extend n = (a.extend n).armed id :=
  a.armed_mapTop id fun _ => rfl

theorem armed_retract (n : Nat) : (a.armed id).retract n = (a.retract n).armed id :=
  a.armed_mapTop id fun _ => rfl

theorem armed_openChunk (block : Span) (n : Nat) :
    (a.armed id).openChunk block n = (a.openChunk block n).armed id := by
  unfold openChunk
  exact armed_mapTop { a with chunks := a.chunks ++ [block] } id fun _ => rfl

theorem armed_addBig (block : Span) : (a.armed id).addBig block = (a.addBig block).armed id := by
  unfold addBig
  exact armed_mapTop { a with bigBlocks := a.bigBlocks ++ [block] } id fun _ => rfl

theorem armed_replaceBig (block : Span) :
    (a.armed id).replaceBig block = (a.replaceBig block).armed id := by
  rw [replaceBig, armed_bigCount, replaceBig]
  exact armed_mapTop
    { a with bigBlocks := a.bigBlocks.set (a.top.bigCount - 1) block } id fun _ => rfl

theorem armed_addChunk (block : Span) : (a.armed id).addChunk block = (a.addChunk block).armed id :=
  rfl

theorem armed_pushMark (chunkCount free : Nat) (last : Option Nat) :
    (a.armed id).pushMark chunkCount free last = (a.pushMark chunkCount free last).armed id := by
  simp only [pushMark, armed_seq, armed_bigCount]
  simp [armed]

end Armed

theorem armed_topHandle : (a.armed id).topHandle = ⟨id, a.topHandle.depth, a.topHandle.id⟩ := by
  have hId : ((a.armed id).markAt a.depth).id = (a.markAt a.depth).id :=
    armed_markAt (fun _ => rfl) a.depth
  rw [topHandle, handleAt, armed_depth, hId]
  rfl

theorem armed_isLive {h h' : Handle} (hAlike : h.Alike a.id id h') :
    (a.armed id).isLive h' = a.isLive h := by
  have hOwner : (h'.owner == id) = (h.owner == a.id) := by
    rw [Bool.eq_iff_iff, beq_iff_eq, beq_iff_eq]
    exact hAlike.own
  have hMark : (((a.armed id).marks[h.depth]?).any fun m => m.id == h.id) =
      (a.marks[h.depth]?).any fun m => m.id == h.id := by
    simp only [armed, List.getElem?_map, Option.any_map]
  rw [isLive, isLive, hAlike.depth, hAlike.mark, hMark]
  exact congrArg (· && _) hOwner

namespace World

variable {σ τ : Type} {R : σ → τ → Prop}

/-- An arena that does not panic and one that does, in the same state: they are equal but for their
numbers and the wish to panic, and they see the same memory. -/
structure Twins (R : σ → τ → Prop) (id id' : Nat) (w : World σ) (w' : World τ) : Prop where
  number : w.arena.id = id
  calm : w.arena.flags = .ofPanics false
  arena : w'.arena = w.arena.armed id'
  sources : BlockSource.Alike R w.source w'.source
  stores : R w.host.store w'.host.store
  memory : w'.host.memory = w.host.memory

/-- Results of the same call on twins before failures are reported. -/
inductive Parallel {α : Type} (R : σ → τ → Prop) (id id' : Nat) (S : α → α → Prop) :
    Except Error α × World σ → Except Error α × World τ → Prop
  | ok {answer answer' : α} {w : World σ} {w' : World τ} (same : S answer answer')
      (twins : Twins R id id' w w') : Parallel R id id' S (.ok answer, w) (.ok answer', w')
  | error {e : Error} {w : World σ} {w' : World τ} (twins : Twins R id id' w w') :
      Parallel R id id' S (.error e, w) (.error e, w')

variable {w : World σ} {w' : World τ}

theorem Twins.withArena (h : Twins R id id' w w') {a : Arena} (hId : a.id = w.arena.id)
    (hFlags : a.flags = w.arena.flags) : Twins R id id' (w.withArena a) (w'.withArena (a.armed id')) :=
  ⟨hId.trans h.number, hFlags.trans h.calm, rfl, h.sources, h.stores, h.memory⟩

theorem Twins.note (h : Twins R id id' w w') (e e' : Event) :
    Twins R id id' (w.note e) (w'.note e') :=
  ⟨h.number, h.calm, h.arena, h.sources, h.stores, h.memory⟩

theorem Twins.release (h : Twins R id id' w w') (blocks : List Span) :
    Twins R id id' (w.release blocks) (w'.release blocks) := by
  refine ⟨h.number, h.calm, h.arena, h.sources, ?_, h.memory⟩
  have hFold : ∀ (blocks : List Span) {s : σ} {s' : τ}, R s s' →
      R (blocks.foldl (fun store block => w.source.release block store) s)
        (blocks.foldl (fun store block => w'.source.release block store) s') := by
    intro blocks
    induction blocks with
    | nil => exact fun hStores => hStores
    | cons block blocks ih => exact fun hStores => ih (h.sources.release hStores block)
  exact hFold blocks h.stores

theorem Twins.copy (h : Twins R id id' w w') (source target size : Nat) :
    Twins R id id' (w.copy source target size) (w'.copy source target size) :=
  ⟨h.number, h.calm, h.arena, h.sources, h.stores,
    congrArg (fun m => Memory.copy m source target size) h.memory⟩

theorem Twins.acquire (h : Twins R id id' w w') (n : Nat) :
    Parallel R id id' Eq (w.acquire n) (w'.acquire n) := by
  obtain ⟨hGrant, hStores⟩ := h.sources.request h.stores n
  unfold World.acquire Host.acquire
  rcases hAnswer : w.source.request n w.host.store with ⟨_ | grant, store⟩ <;>
    rcases hAnswer' : w'.source.request n w'.host.store with ⟨_ | grant', store'⟩ <;>
    rw [hAnswer, hAnswer'] at hGrant hStores <;> cases hGrant
  · exact .error ⟨h.number, h.calm, h.arena, h.sources, hStores, h.memory⟩
  · refine .ok rfl ⟨h.number, h.calm, h.arena, h.sources, hStores, ?_⟩
    exact congrArg (fun m => Memory.paint m _ _) h.memory

/-! ### Allocating -/

theorem Twins.allocInChunk (h : Twins R id id' w w') (bytes n : Nat) :
    Parallel R id id' Eq (w.allocInChunk bytes n) (w'.allocInChunk bytes n) := by
  have hBlock := h.acquire bytes
  unfold World.allocInChunk
  generalize w.acquire bytes = r at hBlock ⊢
  generalize w'.acquire bytes = r' at hBlock ⊢
  cases hBlock with
  | error hTwins => exact .error hTwins
  | ok hSame hTwins =>
    subst hSame
    refine .ok rfl (Twins.note ?_ _ _)
    rw [hTwins.arena, armed_openChunk]
    exact hTwins.withArena rfl rfl

theorem Twins.allocBig (h : Twins R id id' w w') (n : Nat) :
    Parallel R id id' Eq (w.allocBig n) (w'.allocBig n) := by
  have hBlock := h.acquire n
  unfold World.allocBig
  generalize w.acquire n = r at hBlock ⊢
  generalize w'.acquire n = r' at hBlock ⊢
  cases hBlock with
  | error hTwins => exact .error hTwins
  | ok hSame hTwins =>
    subst hSame
    refine .ok rfl (Twins.note ?_ _ _)
    rw [hTwins.arena, armed_addBig]
    exact hTwins.withArena rfl rfl

theorem Twins.carve (h : Twins R id id' w w') (size : Nat) (claim : Claim) :
    Parallel R id id' Eq (w.carve size claim) (w'.carve size claim) := by
  unfold World.carve
  simp only [h.arena, armed_route, armed_remaining, armed_nextFree, armed_bump]
  split
  · exact .error h
  · cases w.arena.route (Size.roundUp size) with
    | bump => exact .ok rfl (h.withArena rfl rfl)
    | chunk bytes => exact h.allocInChunk bytes _
    | big => exact h.allocBig _

/-! ### Marks and frames -/

theorem Twins.cutTo (h : Twins R id id' w w') (depth : Nat) :
    Twins R id id' (w.cutTo depth) (w'.cutTo depth) := by
  unfold World.cutTo
  refine Twins.note ?_ _ _
  rw [h.arena, armed_blocksAbove, armed_cutTo]
  exact (h.release _).withArena rfl rfl

/-- Handles of the current marks of twins. -/
def OwnHandles (id id' : Nat) (h h' : Handle) : Prop := h.owner = id ∧ h' = ⟨id', h.depth, h.id⟩

theorem Twins.addMark (h : Twins R id id' w w') (chunkCount free : Nat) :
    OwnHandles id id' (w.addMark chunkCount free).1 (w'.addMark chunkCount free).1 ∧
      Twins R id id' (w.addMark chunkCount free).2 (w'.addMark chunkCount free).2 := by
  unfold World.addMark
  simp only [h.arena, armed_pushMark]
  refine ⟨⟨h.number, armed_topHandle⟩, Twins.note ?_ _ _⟩
  exact h.withArena rfl rfl

theorem Twins.enterMark (h : Twins R id id' w w') :
    Parallel R id id' (OwnHandles id id') w.enterMark w'.enterMark := by
  unfold World.enterMark
  simp only [h.arena, armed_remaining, armed_chunkCount, armed_free]
  split
  · obtain ⟨hHandles, hTwins⟩ := h.addMark w.arena.top.chunkCount (w.arena.top.free + footprint)
    exact .ok hHandles hTwins
  · have hBlock := h.acquire w.arena.chunkSize
    rw [show (w.arena.armed id').chunkSize = w.arena.chunkSize from rfl]
    generalize w.acquire w.arena.chunkSize = r at hBlock ⊢
    generalize w'.acquire w.arena.chunkSize = r' at hBlock ⊢
    cases hBlock with
    | error hTwins => exact .error hTwins
    | @ok block _ w w' hSame hTwins =>
      subst hSame
      have hAdded : Twins R id id' (w.withArena (w.arena.addChunk block))
          (w'.withArena (w'.arena.addChunk block)) := by
        rw [hTwins.arena, armed_addChunk]
        exact hTwins.withArena rfl rfl
      obtain ⟨hHandles, hMarked⟩ := hAdded.addMark (w.arena.addChunk block).chunks.length footprint
      have hLength : (w'.arena.addChunk block).chunks.length =
          (w.arena.addChunk block).chunks.length := by rw [hTwins.arena]; rfl
      simp only [hLength]
      exact .ok hHandles hMarked

theorem Twins.fuseFrame (h : Twins R id id' w w') (n : Nat) (claim : Claim) :
    (w'.fuseFrame n claim).1 = (w.fuseFrame n claim).1 ∧
      Twins R id id' (w.fuseFrame n claim).2 (w'.fuseFrame n claim).2 := by
  unfold World.fuseFrame
  simp only [h.arena, armed_free, armed_chunk, armed_chunkCount, armed_pushMark]
  exact ⟨trivial, h.withArena rfl rfl⟩

theorem Twins.enterFrame (h : Twins R id id' w w') (size : Nat) (claim : Claim) :
    Parallel R id id' Eq (w.enterFrame size claim) (w'.enterFrame size claim) := by
  unfold World.enterFrame
  rw [h.arena, armed_fitsFrame]
  split
  · exact .error h
  split
  · obtain ⟨hSpan, hTwins⟩ := h.fuseFrame (Size.roundUp size) claim
    exact .ok hSpan.symm hTwins
  have hMark := h.enterMark
  generalize w.enterMark = r at hMark ⊢
  generalize w'.enterMark = r' at hMark ⊢
  cases hMark with
  | error hTwins => exact .error hTwins
  | @ok handle handle' w w' hHandles hTwins =>
    have hDepth : handle'.depth = handle.depth := by rw [hHandles.2]
    have hSpan := hTwins.carve size claim
    simp only
    generalize w.carve size claim = r at hSpan ⊢
    generalize w'.carve size claim = r' at hSpan ⊢
    cases hSpan with
    | ok hSame hCarved => exact .ok hSame hCarved
    | error hFailed =>
      rw [hDepth]
      exact .error (hFailed.cutTo _)

theorem Twins.popMark (h : Twins R id id' w w') {handle handle' : Handle}
    (hAlike : handle.Alike id id' handle') :
    Parallel R id id' Eq (w.popMark handle) (w'.popMark handle') := by
  unfold World.popMark
  have hBottom : handle'.isBottom = handle.isBottom := by
    rw [Handle.isBottom, hAlike.depth]
    rfl
  have hLive : w'.arena.isLive handle' = w.arena.isLive handle := by
    rw [h.arena]
    exact armed_isLive (h.number ▸ hAlike)
  rw [hLive, hBottom, hAlike.depth, hAlike.mark]
  split
  · split
    · exact .ok rfl h
    · exact .ok rfl (h.cutTo _)
  · exact .error h

theorem Twins.popFrame (h : Twins R id id' w w') : Twins R id id' w.popFrame w'.popFrame := by
  unfold World.popFrame
  rw [h.arena, armed_depth]
  split
  · exact h
  · exact h.cutTo _

/-! ### The last allocation -/

theorem Twins.moveBig (h : Twins R id id' w w') (last used n : Nat) :
    Parallel R id id' Eq (w.moveBig last used n) (w'.moveBig last used n) := by
  have hBlock := h.acquire n
  unfold World.moveBig
  generalize w.acquire n = r at hBlock ⊢
  generalize w'.acquire n = r' at hBlock ⊢
  cases hBlock with
  | error hTwins => exact .error hTwins
  | @ok block _ w w' hSame hTwins =>
    subst hSame
    refine .ok rfl ?_
    have hCopied := hTwins.copy last block.start used
    have hOld : w'.arena.topBig? = w.arena.topBig? := by rw [hTwins.arena, armed_topBig?]
    rw [hOld, hCopied.arena, armed_replaceBig]
    exact (hCopied.release _).withArena rfl rfl

theorem Twins.moveFromChunk (h : Twins R id id' w w') (last used n : Nat) :
    Parallel R id id' Eq (w.moveFromChunk last used n) (w'.moveFromChunk last used n) := by
  have hSpan := h.carve n .exact
  unfold World.moveFromChunk
  generalize w.carve n .exact = r at hSpan ⊢
  generalize w'.carve n .exact = r' at hSpan ⊢
  cases hSpan with
  | error hTwins => exact .error hTwins
  | ok hSame hTwins =>
    subst hSame
    exact .ok rfl (hTwins.copy _ _ _)

theorem Twins.moveLast (h : Twins R id id' w w') (last increment grown : Nat) :
    Parallel R id id' Eq (w.moveLast last increment grown) (w'.moveLast last increment grown) := by
  unfold World.moveLast
  simp only [h.arena, armed_sizeOfLast, armed_isBig]
  split
  · exact .error h
  split
  · exact h.moveBig _ _ _
  · exact h.moveFromChunk _ _ _

theorem Parallel.addressOf {r : Except Error Span × World σ} {r' : Except Error Span × World τ}
    (h : Parallel R id id' Eq r r') : Parallel R id id' Eq (addressOf r) (addressOf r') := by
  cases h with
  | ok same twins => exact .ok (congrArg Span.start same) twins
  | error twins => exact .error twins

theorem Twins.expandLast (h : Twins R id id' w w') (increment : Nat) (inPlace : Bool) :
    Parallel R id id' Eq (w.expandLast increment inPlace) (w'.expandLast increment inPlace) := by
  unfold World.expandLast
  simp only [h.arena, armed_last, armed_isBig, armed_remaining, armed_extend]
  cases w.arena.top.last with
  | none => exact (h.carve increment .exact).addressOf
  | some last =>
    simp only
    split
    · exact .error h
    split
    · exact .ok rfl (h.withArena rfl rfl)
    split
    · exact .error h
    · exact h.moveLast _ _ _

theorem Twins.shrinkLast (h : Twins R id id' w w') (decrement : Nat) :
    Parallel R id id' Eq (w.shrinkLast decrement) (w'.shrinkLast decrement) := by
  unfold World.shrinkLast
  simp only [h.arena, armed_last, armed_isBig, armed_sizeOfLast, armed_retract]
  cases w.arena.top.last with
  | none => exact .error h
  | some last =>
    simp only
    split
    · exact .ok rfl h
    · exact .ok rfl (h.withArena rfl rfl)

theorem Twins.resizeLast (h : Twins R id id' w w') (size : Nat) (inPlace : Bool) :
    Parallel R id id' Eq (w.resizeLast size inPlace) (w'.resizeLast size inPlace) := by
  unfold World.resizeLast
  simp only [h.arena, armed_last, armed_isBig, armed_sizeOfLast, armed_retract]
  cases w.arena.top.last with
  | none => exact .error h
  | some last =>
    simp only
    split
    · exact .error h
    split
    · exact .ok rfl (h.withArena rfl rfl)
    split
    · exact h.shrinkLast _
    · exact h.expandLast _ _

end World

end ArenaRegistry.Arena
