import ArenaRegistry.Proofs.Arena.Bounds
import ArenaRegistry.Proofs.Arena.Checked

/-! No call faults. In machine words each function on worlds gives what it gives in natural numbers,
as long as the arena is well formed, its blocks lie within the address space, and there is a number
for each mark. -/

namespace ArenaRegistry.Arena

namespace Checked

/-! ### Words -/

theorem add_eq {bits a b : Nat} (h : a + b < 2 ^ bits) : add bits a b = some (a + b) := if_pos h

theorem sub_eq {a b : Nat} (h : b ≤ a) : sub a b = some (a - b) := if_pos h

theorem roundUp_eq {n : Nat} (h : n ≤ Size.largest) : roundUp n = some (Size.roundUp n) := by
  have hWord : n + Size.grain < 2 ^ 64 := by
    have : Size.largest + Size.grain < 2 ^ 64 := by decide
    omega
  have hOne : 1 ≤ n + Size.grain := Nat.le_add_left 1 (n + 7)
  rw [roundUp, add_eq hWord, Option.bind_eq_bind, Option.bind_some, sub_eq hOne]
  rfl

/-- The next grain of such a number is no word. -/
example : roundUp (2 ^ 64 - 8) = none := by decide

/-! ### Reading an arena -/

section Reading

variable {a : Arena}

theorem topIndex_eq (h : a.marks ≠ []) : topIndex a = some a.depth :=
  sub_eq (List.length_pos_iff.mpr h)

theorem top_eq (h : a.marks ≠ []) : top a = some a.top := by
  obtain ⟨below, hSplit⟩ := exists_marks_eq h
  rw [top, topIndex_eq h, Option.bind_eq_bind, Option.bind_some, Arena.depth, hSplit]
  simp

theorem topHandle_eq (h : a.marks ≠ []) : topHandle a = some a.topHandle := by
  have hLess : a.depth < a.marks.length := Nat.sub_one_lt_of_lt (List.length_pos_iff.mpr h)
  simp only [topHandle, topIndex_eq h, handleAt, List.getElem?_eq_getElem hLess,
    Option.bind_eq_bind, Option.bind_some, Arena.topHandle, Arena.handleAt, Arena.markAt]
  rfl

theorem chunk_eq (h : a.WellFormed) : chunk a = some a.chunk := by
  have hPos : 1 ≤ a.top.chunkCount := h.chunks ▸ h.chunks_pos
  simp only [chunk, top_eq h.nonempty, sub_eq hPos, Option.bind_eq_bind, Option.bind_some]
  rw [h.chunks]
  exact h.chunk_eq

theorem remaining_eq (h : a.WellFormed) : remaining a = some a.remaining := by
  simp only [remaining, top_eq h.nonempty, chunk_eq h, Option.bind_eq_bind, Option.bind_some]
  exact sub_eq h.free_le

theorem topBig_eq (h : a.WellFormed) {block : Span} (hBlock : a.topBig? = some block) :
    topBig a = some block := by
  obtain ⟨hPos, hAt⟩ := bigAt?_eq_some hBlock
  simp only [topBig, top_eq h.nonempty, sub_eq (Nat.succ_le_of_lt hPos), Option.bind_eq_bind,
    Option.bind_some]
  exact hAt

theorem isBig_eq (h : a.WellFormed) (address : Nat) :
    isBig a address = some (a.isBig address) := by
  simp only [isBig, top_eq h.nonempty, Option.bind_eq_bind, Option.bind_some]
  split
  next hPos =>
    -- A mark that counts big blocks counts those there are.
    have hLess : a.top.bigCount - 1 < a.bigBlocks.length := by
      have := h.bigs
      omega
    have hBlock : a.topBig? = some a.bigBlocks[a.top.bigCount - 1] := by
      rw [Arena.topBig?, Arena.bigAt?, if_neg (Nat.ne_of_gt hPos), List.getElem?_eq_getElem hLess]
    rw [topBig_eq h hBlock, Option.bind_some, Arena.isBig, hBlock]
    rfl
  next hNone =>
    rw [Arena.isBig, Arena.topBig?, Arena.bigAt?, if_pos (by omega)]
    rfl

theorem sizeOfLast_eq (h : a.WellFormed) {last : Nat} (hLast : a.top.last = some last) :
    sizeOfLast a last (a.isBig last) = some (a.sizeOfLast last) := by
  obtain ⟨below, -, hSits, -⟩ := h.exists_below
  cases hBig : a.isBig last with
  | true =>
    obtain ⟨-, block, hBlock, rfl⟩ := hSits.own_of_isBig hLast hBig
    simp only [sizeOfLast, topBig_eq h hBlock, sizeOfLast_of_topBig hBlock, Option.bind_eq_bind,
      Option.bind_some, if_true]
    rfl
  | false =>
    obtain ⟨offset, rfl, -, hUsed, -, hSize, -⟩ := hSits.offset_of_not_isBig hLast hBig
    simp only [sizeOfLast, chunk_eq h, top_eq h.nonempty, Option.bind_eq_bind, Option.bind_some,
      sub_eq (Nat.le_add_right _ _), Nat.add_sub_cancel_left, sub_eq hUsed, hSize]
    rfl

theorem lastSize_eq (h : a.WellFormed) : lastSize a = some a.lastSize? := by
  simp only [lastSize, top_eq h.nonempty, Option.bind_eq_bind, Option.bind_some, Arena.lastSize?]
  cases hLast : a.top.last with
  | none => rfl
  | some last =>
    simp only [isBig_eq h, sizeOfLast_eq h hLast, Option.bind_some, Option.map_some]
    rfl

theorem isLive_eq (a : Arena) (h : Handle) : isLive a h = some (a.isLive h) := by
  unfold isLive Arena.isLive
  by_cases hOwner : h.owner = a.id <;> by_cases hDepth : h.depth < a.marks.length <;>
    simp [hOwner, hDepth]

theorem chunkSizeFor_eq (h : a.Sized) {n : Nat} (hn : n ≤ largestBlock) :
    chunkSizeFor a n = some (a.chunkSizeFor n) := by
  have hChunk := h.chunkSize_le
  have hWord : largestBlock + Size.roundUp Settings.maxChunk < 2 ^ 64 := by decide
  unfold chunkSizeFor Arena.chunkSizeFor
  split
  · rw [add_eq (by omega)]
    rfl
  · rfl

/-- The place of a mark on top of the stack is a word if there are not too many marks. -/
theorem seq_lt (h : a.WellFormed) (hMarks : a.marks.length < 2 ^ 32 - 1) :
    a.top.seq + 1 < 2 ^ 32 := by
  obtain ⟨below, hSplit, hSits, -⟩ := h.exists_below
  have hLength : a.marks.length = below.length + 1 := by rw [hSplit]; simp
  rw [hSits.seq, List.length_reverse]
  omega

theorem pushMark_eq (h : a.marks ≠ []) (hSeq : a.top.seq + 1 < 2 ^ 32)
    (hNext : a.nextMarkId + 1 < 2 ^ 64) (chunkCount free : Nat) (last : Option Nat) :
    pushMark a chunkCount free last = some (a.pushMark chunkCount free last) := by
  simp only [pushMark, top_eq h, add_eq hSeq, add_eq hNext, Option.bind_eq_bind, Option.bind_some]
  rfl

end Reading

/-! ### Functions on worlds -/

section Functions

variable {σ : Type} {w : World (Traced σ)}

theorem setTop_eq (h : w.arena.WellFormed) {free : Nat} {last : Option Nat} {f : Mark → Mark}
    (hTop : f w.arena.top = { w.arena.top with free, last }) :
    setTop w free last = w.withArena (w.arena.mapTop f) :=
  congrArg w.withArena (mapTop_congr h.nonempty hTop.symm)

/-- Addresses in the current chunk are words. -/
theorem addressIn_chunk (h : w.arena.Addressable) {offset : Nat}
    (hOffset : offset < w.arena.chunk.size) :
    addressIn w.arena.chunk offset = some (w.arena.chunk.start + offset) := by
  have hStop := h.space _ (List.mem_append_left _ h.wellFormed.chunk_mem)
  rw [addressIn, if_pos (Nat.le_of_lt hOffset)]
  exact add_eq (Nat.lt_of_lt_of_le (Nat.add_lt_add_left hOffset _) hStop)

theorem carve_eq (h : w.arena.Addressable) (size : Nat) (claim : Claim) :
    carve w size claim = some (w.carve size claim) := by
  unfold carve World.carve
  split
  · rfl
  next hValid =>
  have hLe : size ≤ Size.largest := Nat.le_of_not_lt fun hLess => hValid (.inr hLess)
  have hNeeded := roundUp_le_largestBlock hValid
  have hFree := h.wellFormed.free_le
  have hLeft : w.arena.chunk.size - w.arena.top.free = w.arena.remaining := rfl
  simp only [roundUp_eq hLe, chunk_eq h.wellFormed, top_eq h.wellFormed.nonempty, sub_eq hFree, hLeft,
    Option.bind_eq_bind, Option.bind_some, route]
  split
  next hRoom =>
    have hTaken : claim.taken (Size.roundUp size) w.arena.remaining ≤ w.arena.remaining := by
      cases claim with
      | exact => exact hRoom
      | rest => exact Nat.le_refl _
    have hInside : w.arena.top.free < w.arena.chunk.size := by
      have := roundUp_pos hValid
      omega
    have hWord := h.free_add_lt (Nat.le_trans hTaken h.remaining_le)
    simp only [addressIn_chunk h hInside, add_eq hWord, Option.bind_some]
    have hSet : setTop w (w.arena.top.free + claim.taken (Size.roundUp size) w.arena.remaining)
        (some (w.arena.chunk.start + w.arena.top.free)) =
          w.withArena (w.arena.bump (claim.taken (Size.roundUp size) w.arena.remaining)) :=
      setTop_eq h.wellFormed rfl
    rw [hSet]
    rfl
  next hFull =>
    split
    · rw [chunkSizeFor_eq h.sized hNeeded]
      rfl
    · rfl

/-! ### Marks and frames -/

/-- A cut to a mark on the stack does not fault. -/
theorem cutTo_eq {depth : Nat} (hDepth : depth < w.arena.marks.length)
    (hMarks : w.arena.marks.length < 2 ^ 64) : cutTo w depth = some (w.cutTo depth) := by
  have hWord : depth + 1 < 2 ^ 64 := Nat.lt_of_le_of_lt hDepth hMarks
  simp only [cutTo, List.getElem?_eq_getElem hDepth, add_eq hWord,
    Option.bind_eq_bind, Option.bind_some]
  rfl

theorem addMark_eq (h : w.arena.marks ≠ []) (hSeq : w.arena.top.seq + 1 < 2 ^ 32)
    (hNext : w.arena.nextMarkId + 1 < 2 ^ 64) (chunkCount free : Nat) :
    addMark w chunkCount free = some (w.addMark chunkCount free) := by
  have hPushed : (w.arena.pushMark chunkCount free none).marks ≠ [] := by
    simp [Arena.pushMark]
  simp only [addMark, pushMark_eq h hSeq hNext, Option.bind_eq_bind, Option.bind_some,
    sub_eq (List.length_pos_iff.mpr hPushed), topHandle_eq hPushed]
  rfl

/-- Pushing a mark is faultless if there is a place and a number for the mark, should there be one. -/
theorem enterMark_eq (h : w.arena.Addressable) (hMarks : w.arena.marks.length < 2 ^ 32 - 1)
    (hNext : w.arena.nextMarkId + w.entered < 2 ^ 64) : enterMark w = some w.enterMark := by
  have hNonempty := h.wellFormed.nonempty
  have hSeq := seq_lt h.wellFormed hMarks
  simp only [enterMark, top_eq hNonempty, remaining_eq h.wellFormed, Option.bind_eq_bind,
    Option.bind_some]
  unfold World.entered at hNext
  unfold World.enterMark at hNext ⊢
  split
  next hRoom =>
    rw [if_pos hRoom] at hNext
    rw [add_eq (h.free_add_lt (by decide)), Option.bind_some, addMark_eq hNonempty hSeq hNext]
    rfl
  next hFull =>
    rw [if_neg hFull] at hNext
    have hArena := w.acquire_arena w.arena.chunkSize
    rcases hr : w.acquire w.arena.chunkSize with ⟨_ | block, w'⟩ <;> rw [hr] at hArena hNext
    · rfl
    · -- With the chunk on the stack and no mark for it yet the arena is not well formed, but a push
      -- looks at the marks alone.
      rw [← hArena] at hNonempty hSeq hNext
      have hAdded := addMark_eq (w := w'.withArena (w'.arena.addChunk block)) hNonempty hSeq hNext
      simp only [hAdded, Option.bind_some]
      rfl

theorem fuseFrame_eq (h : w.arena.Addressable) (hMarks : w.arena.marks.length < 2 ^ 32 - 1)
    (hNext : w.arena.nextMarkId + 1 < 2 ^ 64) {n : Nat} (hPos : 0 < n)
    (hFits : w.arena.fitsFrame n = true) (claim : Claim) :
    fuseFrame w n claim = some (w.fuseFrame n claim) := by
  have hRoom : n + footprint ≤ w.arena.chunk.size - w.arena.top.free := of_decide_eq_true hFits
  have hChunk := h.chunk_size_le
  have hWord : largestBlock < 2 ^ 64 := by decide
  have hStart : w.arena.top.free + footprint < 2 ^ 64 := by omega
  have hInside : w.arena.top.free + footprint < w.arena.chunk.size := by omega
  have hPush := pushMark_eq h.wellFormed.nonempty (seq_lt h.wellFormed hMarks) hNext
  unfold fuseFrame
  cases claim with
  | exact =>
    have hStop : w.arena.top.free + footprint + n < 2 ^ 64 := by omega
    simp only [chunk_eq h.wellFormed, top_eq h.wellFormed.nonempty, add_eq hStart, add_eq hStop,
      addressIn_chunk h hInside, hPush, sub_eq (Nat.le_add_right _ _), Nat.add_sub_cancel_left,
      Option.bind_eq_bind, Option.bind_some]
    rfl
  | rest =>
    have hRest : w.arena.top.free + footprint +
        (w.arena.chunk.size - (w.arena.top.free + footprint)) = w.arena.chunk.size := by omega
    simp only [chunk_eq h.wellFormed, top_eq h.wellFormed.nonempty, add_eq hStart,
      addressIn_chunk h hInside, hPush, sub_eq (Nat.le_of_lt hInside), Option.bind_eq_bind,
      Option.bind_some, World.fuseFrame, Claim.taken, hRest]
    rfl

/-- Pushing a frame is faultless if there is a place and a number for its mark. -/
theorem enterFrame_eq {src : BlockSource σ} (hw : w.Orderly src) (h : w.arena.Addressable)
    (hMarks : w.arena.marks.length < 2 ^ 32 - 1) (size : Nat) (claim : Claim)
    (hNext : w.arena.nextMarkId + w.framed size < 2 ^ 64)
    (hLawful : Traffic.Lawful (w.enterFrame size claim).2.traffic) :
    enterFrame w size claim = some (w.enterFrame size claim) := by
  unfold World.framed at hNext
  unfold enterFrame World.enterFrame
  split
  · rfl
  next hValid =>
  rw [if_neg hValid] at hNext
  have hLe : size ≤ Size.largest := Nat.le_of_not_lt fun hLess => hValid (.inr hLess)
  have hNeeded := roundUp_le_largestBlock hValid
  have hTotal : Size.roundUp size + footprint < 2 ^ 64 := by
    have : largestBlock + footprint < 2 ^ 64 := by decide
    omega
  have hFitsIff : w.arena.fitsFrame (Size.roundUp size) = true ↔
      Size.roundUp size + footprint ≤ w.arena.chunk.size - w.arena.top.free := decide_eq_true_iff
  simp only [roundUp_eq hLe, chunk_eq h.wellFormed, top_eq h.wellFormed.nonempty, add_eq hTotal,
    sub_eq h.wellFormed.free_le, Option.bind_eq_bind, Option.bind_some, ← hFitsIff]
  split
  next hFits =>
    rw [if_pos hFits] at hNext
    rw [fuseFrame_eq h hMarks hNext (roundUp_pos hValid) hFits]
    rfl
  next hFull =>
    rw [if_neg hFull] at hNext
    rw [enterMark_eq h hMarks hNext, Option.bind_some]
    have hEnter := w.enterMark_roster
    rcases hr : w.enterMark with ⟨_ | handle, w₁⟩ <;> rw [hr] at hEnter
    · rfl
    have hAfter := World.enterMark_addressable hw h.sized hValid hFull hLawful hr
    simp only [carve_eq hAfter, Option.bind_some]
    have hCarve := w₁.carve_roster size claim
    rcases hr' : w₁.carve size claim with ⟨_ | span, w₂⟩ <;> simp only [hr'] at hCarve ⊢
    · -- The new mark is on top, so the one to go back to is the one that was.
      have hPos := List.length_pos_iff.mpr h.wellFormed.nonempty
      have hDepth : handle.depth = w.arena.marks.length := by
        rw [hEnter.2, topHandle_of_push hEnter.1]
        exact length_roster_ids _
      have hLength : w₂.arena.marks.length = w.arena.marks.length + 1 := by
        rw [← length_roster_ids, hCarve, hEnter.1, ← length_roster_ids]
        simp [Roster.push]
      rw [hDepth, sub_eq hPos, Option.bind_some, cutTo_eq (by omega) (by omega)]
      rfl
    · rfl

theorem popMark_eq (h : w.arena.WellFormed) (hMarks : w.arena.marks.length < 2 ^ 32 - 1)
    (handle : Handle) : popMark w handle = some (w.popMark handle) := by
  unfold popMark World.popMark
  simp only [isLive_eq, Option.bind_eq_bind, Option.bind_some]
  split
  next hLive =>
    have hDepth : handle.depth < w.arena.marks.length := by
      rw [h.length_marks]
      exact Nat.lt_succ_of_le (World.depth_of_isLive hLive)
    split
    · rfl
    next hBottom =>
      have hPos : 1 ≤ handle.depth := by
        simp only [Handle.isBottom, beq_iff_eq] at hBottom
        omega
      simp only [sub_eq hPos, cutTo_eq (Nat.lt_of_le_of_lt (Nat.sub_le _ 1) hDepth)
        (Nat.lt_trans hMarks (by decide)), Option.bind_some]
      rfl
  · rfl

theorem popFrame_eq (hMarks : w.arena.marks.length < 2 ^ 32 - 1) :
    popFrame w = some w.popFrame := by
  unfold popFrame World.popFrame Arena.depth
  split
  next hMany =>
    have hCut : cutTo w (w.arena.marks.length - 2) = some (w.cutTo (w.arena.marks.length - 2)) :=
      cutTo_eq (by omega) (by omega)
    rw [if_neg (by omega), sub_eq (Nat.succ_le_of_lt hMany), Option.bind_eq_bind, Option.bind_some,
      hCut, Nat.sub_sub]
  next hBottom => rw [if_pos (by omega)]; rfl

/-! ### The last allocation -/

theorem moveBig_eq (h : w.arena.WellFormed) {last : Nat} (hBig : w.arena.isBig last = true)
    (used n : Nat) : moveBig w last used n = some (w.moveBig last used n) := by
  obtain ⟨old, hOld, -⟩ := isBig_iff.mp hBig
  have hArena := w.acquire_arena n
  unfold moveBig World.moveBig
  rcases hr : w.acquire n with ⟨_ | block, w'⟩ <;> rw [hr] at hArena
  · rfl
  · rw [← hArena] at h hOld
    simp only [World.copy_arena, topBig_eq h hOld, hOld, Option.bind_eq_bind, Option.bind_some]
    rfl

theorem moveFromChunk_eq (h : w.arena.Addressable) (last used n : Nat) :
    moveFromChunk w last used n = some (w.moveFromChunk last used n) := by
  unfold moveFromChunk World.moveFromChunk
  rw [carve_eq h, Option.bind_eq_bind, Option.bind_some]
  rcases w.carve n .exact with ⟨_ | span, w'⟩ <;> rfl

theorem moveLast_eq (h : w.arena.Addressable) {last : Nat} (hLast : w.arena.top.last = some last)
    (increment : Nat) {grown : Nat} (hGrown : grown ≤ largestBlock) :
    moveLast w last (w.arena.isBig last) increment grown =
      some (w.moveLast last increment grown) := by
  have hUsed := h.sizeOfLast_le hLast
  have hWord : w.arena.sizeOfLast last + grown < 2 ^ 64 := by
    have : largestBlock + largestBlock < 2 ^ 64 := by decide
    omega
  simp only [moveLast, sizeOfLast_eq h.wellFormed hLast, add_eq hWord, Option.bind_eq_bind,
    Option.bind_some, World.moveLast]
  split
  · rfl
  split
  next hBig => exact moveBig_eq h.wellFormed hBig _ _
  · exact moveFromChunk_eq h _ _ _

theorem expandLast_eq (h : w.arena.Addressable) (increment : Nat) (inPlace : Bool) :
    expandLast w increment inPlace = some (w.expandLast increment inPlace) := by
  simp only [expandLast, top_eq h.wellFormed.nonempty, Option.bind_eq_bind, Option.bind_some,
    World.expandLast]
  cases hLast : w.arena.top.last with
  | none =>
    rw [carve_eq h]
    rfl
  | some last =>
    simp only
    split
    · rfl
    next hSize =>
    have hLe : increment ≤ Size.largest := Nat.le_of_not_lt hSize
    have hGrown : Size.roundUp increment ≤ largestBlock := Size.roundUp_mono hLe
    have hMove := moveLast_eq h hLast increment hGrown
    simp only [roundUp_eq hLe, isBig_eq h.wellFormed, Option.bind_some]
    -- A big block does not grow in place, so what remains of the chunk is not looked at.
    cases hBig : w.arena.isBig last with
    | true =>
      rw [hBig] at hMove
      simp only [if_true, Bool.false_eq_true, if_false, hMove]
      cases inPlace <;> simp
    | false =>
      rw [hBig] at hMove
      simp only [remaining_eq h.wellFormed, Bool.false_eq_true, if_false, Option.map_some,
        Option.bind_some, decide_eq_true_eq, hMove]
      by_cases hRoom : Size.roundUp increment ≤ w.arena.remaining
      · have hSet : setTop w (w.arena.top.free + Size.roundUp increment) (some last) =
            w.withArena (w.arena.extend (Size.roundUp increment)) :=
          setTop_eq h.wellFormed (hLast ▸ rfl)
        simp [hRoom, add_eq (h.free_add_lt hGrown), hSet]
      · cases inPlace <;> simp [hRoom]

theorem setTop_retract (h : w.arena.WellFormed) (n : Nat) :
    setTop w (w.arena.top.free - n) w.arena.top.last = w.withArena (w.arena.retract n) :=
  setTop_eq h rfl

theorem shrinkLast_eq (h : w.arena.WellFormed) (decrement : Nat) :
    shrinkLast w decrement = some (w.shrinkLast decrement) := by
  simp only [shrinkLast, top_eq h.nonempty, Option.bind_eq_bind, Option.bind_some,
    World.shrinkLast]
  cases hLast : w.arena.top.last with
  | none => rfl
  | some last =>
    have hUsed := sizeOfLast_eq h hLast
    simp only [isBig_eq h, Option.bind_some]
    cases hBig : w.arena.isBig last with
    | true => simp
    | false =>
      rw [hBig] at hUsed
      by_cases hCut : Size.roundDown decrement ≤ w.arena.sizeOfLast last
      · have hFree := Nat.le_trans hCut (sizeOfLast_le_free hBig)
        have hSet := setTop_retract h (Size.roundDown decrement)
        simp [hUsed, hCut, Nat.not_lt.mpr hCut, sub_eq hFree, ← hLast, hSet]
      · simp [hUsed, hCut, Nat.lt_of_not_le hCut]

theorem resizeLast_eq (h : w.arena.Addressable) (size : Nat) (inPlace : Bool) :
    resizeLast w size inPlace = some (w.resizeLast size inPlace) := by
  simp only [resizeLast, top_eq h.wellFormed.nonempty, Option.bind_eq_bind, Option.bind_some,
    World.resizeLast]
  cases hLast : w.arena.top.last with
  | none => rfl
  | some last =>
    simp only
    split
    · rfl
    next hSize =>
    simp only [roundUp_eq (Nat.le_of_not_lt hSize), isBig_eq h.wellFormed,
      sizeOfLast_eq h.wellFormed hLast, Option.bind_some]
    by_cases hLess : Size.roundUp size ≤ w.arena.sizeOfLast last
    · cases hBig : w.arena.isBig last with
      | true => simp [hLess, sub_eq hLess, shrinkLast_eq h.wellFormed]
      | false =>
        have hCut := Nat.le_trans (Nat.sub_le (w.arena.sizeOfLast last) (Size.roundUp size))
          (sizeOfLast_le_free hBig)
        have hSet :=
          setTop_retract h.wellFormed (w.arena.sizeOfLast last - Size.roundUp size)
        simp [hLess, sub_eq hLess, sub_eq hCut, ← hLast, hSet]
    · have hGrow := sub_eq (Nat.le_of_lt (Nat.lt_of_not_le hLess))
      simp [hLess, hGrow, expandLast_eq h]

/-! ### Calls and runs -/

/-- No call on an arena in order faults, if there is a place and a number for a mark that it
pushes. -/
theorem step_eq {src : BlockSource σ} (hw : w.Orderly src) (hSized : w.arena.Sized) (op : Op)
    (hMarks : w.arena.marks.length < 2 ^ 32 - 1) (hNext : w.arena.nextMarkId + w.pushes op < 2 ^ 64)
    (hLawful : Traffic.Lawful (w.step op).2.traffic) : step w op = some (w.step op) := by
  have hPast := hLawful.before (World.step_advances hw.source op).traffic_grows
  have h := hw.addressable hSized hPast
  cases op with
  | alloc size | allocMin size => simp only [step, carve_eq h]; rfl
  | pushMark => simp only [step, enterMark_eq h hMarks hNext]; rfl
  | pushFrame size | pushFrameMin size =>
    simp only [World.step, World.pushFrame, World.pushFrameMin, World.replied_snd,
      World.policed_snd, World.addressOf_snd] at hLawful
    simp only [step, enterFrame_eq hw h hMarks size _ hNext hLawful]
    rfl
  | popMark handle => simp only [step, popMark_eq h.wellFormed hMarks]; rfl
  | popFrame => simp only [step, popFrame_eq hMarks]; rfl
  | expandLast increment inPlace => simp only [step, expandLast_eq h]; rfl
  | shrinkLast decrement => simp only [step, shrinkLast_eq h.wellFormed]; rfl
  | resizeLast size inPlace => simp only [step, resizeLast_eq h]; rfl

end Functions

end Checked

namespace World

open Traffic (Lawful)

variable {σ : Type} {src : BlockSource σ} {w : World (Traced σ)} {op : Op} {ops : List Op}

/-- There is room for a run: the source keeps its word, and every mark has a place on the stack and
a number of its own. -/
structure Roomy (w : World (Traced σ)) (ops : List Op) : Prop where
  lawful : Lawful (w.run ops).traffic
  places : ∀ k < ops.length, (w.run (ops.take k)).arena.marks.length < 2 ^ 32 - 1
  numbers : w.arena.nextMarkId + w.pushed ops < 2 ^ 64

theorem Roomy.drop (h : w.Roomy ops) (k : Nat) :
    (w.run (ops.take k)).Roomy (ops.drop k) where
  lawful := by
    rw [← run_append, List.take_append_drop]
    exact h.lawful
  places j hj := by
    rw [List.length_drop] at hj
    rw [← run_append, ← List.take_add]
    exact h.places (k + j) (by omega)
  numbers := by
    rw [run_next, Nat.add_assoc, ← pushed_append, List.take_append_drop]
    exact h.numbers

/-- The first call of a run for which there is room does not fault. -/
theorem Roomy.step_eq (hw : w.Orderly src) (hSized : w.arena.Sized) (h : w.Roomy (op :: ops)) :
    Checked.step w op = some (w.step op) := by
  have hGrows := run_traffic_grows (step_source hw.source op) ops
  refine Checked.step_eq hw hSized op (h.places 0 (Nat.succ_pos _)) ?_ (h.lawful.before hGrows)
  have hNumbers := h.numbers
  rw [pushed] at hNumbers
  omega

theorem Roomy.run_eq (hw : w.Orderly src) (hSized : w.arena.Sized) (h : w.Roomy ops) :
    Checked.run w ops = some (w.run ops) := by
  induction ops generalizing w with
  | nil => rfl
  | cons op ops ih =>
    have hRest : (w.step op).2.Roomy ops := h.drop 1
    have hNext := hRest.lawful.before (run_traffic_grows (step_source hw.source op) ops)
    have hOrderly := (step_advances hw.source op).orderly hw hNext.sound
    rw [Checked.run, List.foldlM_cons, h.step_eq hw hSized]
    exact ih hOrderly (step_sized hSized op) hRest

/-- However a source that keeps its word grants and refuses, and whatever is called, no call on an
arena that was started faults, and neither does asking for what remains of the current chunk and
for the size of the last allocation. Fewer than `2 ^ 64` marks are pushed, the bottom mark among
them. -/
theorem run_faultless (src : BlockSource σ) (settings : Settings) (id : Nat)
    (host : Host (Traced σ)) (w : World (Traced σ)) (ops : List Op)
    (hStart : (start src.traced settings id host).1 = .ok w) (hFresh : host.store.traffic = [])
    (hLawful : Lawful (w.run ops).traffic)
    (hMarks : ∀ k < ops.length, (w.run (ops.take k)).arena.marks.length < 2 ^ 32 - 1)
    (hPushed : 1 + w.pushed ops < 2 ^ 64) :
    Checked.run w ops = some (w.run ops) ∧
      ∀ k ≤ ops.length,
        Checked.remaining (w.run (ops.take k)).arena = some (w.run (ops.take k)).arena.remaining ∧
        Checked.lastSize (w.run (ops.take k)).arena = some (w.run (ops.take k)).arena.lastSize? ∧
        ∀ op, ops[k]? = some op →
          Checked.step (w.run (ops.take k)) op = some ((w.run (ops.take k)).step op) := by
  have hSized := start_sized hStart
  obtain ⟨hSource, b, hArena, -⟩ := exists_start hStart
  have hFirst : w.arena.nextMarkId = 1 := by rw [hArena]; rfl
  have hRoomy : w.Roomy ops := ⟨hLawful, hMarks, hFirst ▸ hPushed⟩
  have hBefore := hLawful.sound.before (run_traffic_grows hSource ops)
  have hOrderly := orderly_start hStart hFresh hBefore
  refine ⟨hRoomy.run_eq hOrderly hSized, fun k hk => ?_⟩
  have hPast : (w.run (ops.take k)).traffic <+: (w.run ops).traffic := by
    have hGrows := run_traffic_grows (run_source hSource (ops.take k)) (ops.drop k)
    rwa [← run_append, List.take_append_drop] at hGrows
  have hNow := hOrderly.run (hLawful.before hPast).sound
  refine ⟨Checked.remaining_eq hNow.wellFormed, Checked.lastSize_eq hNow.wellFormed, ?_⟩
  intro op hOp
  obtain ⟨hLess, rfl⟩ := List.getElem?_eq_some_iff.mp hOp
  have hRest := hRoomy.drop k
  rw [List.drop_eq_getElem_cons hLess] at hRest
  exact hRest.step_eq hNow (run_sized hSized _)

/-- A frame that gets a chunk of its own, a big block that grows, and the largest request. -/
theorem run_faultless_limited :
    let ops : List Op := [.alloc 7800, .pushFrame 9000, .alloc 9000, .expandLast 2000 false,
      .alloc Size.largest, .popFrame, .resizeLast 8 true]
    ∃ w : World (Traced Heap),
      (start Heap.limited.traced ⟨0, false⟩ 1 Host.blank).1 = .ok w ∧
        Checked.run w ops = some (w.run ops) ∧
        Checked.lastSize (w.run ops).arena = some (some 8) ∧
        Checked.step (w.run (ops.take 4)) (.alloc Size.largest) =
          some ((w.run (ops.take 4)).step (.alloc Size.largest)) := by
  intro ops
  obtain ⟨hRun, hSteps⟩ := run_faultless Heap.limited ⟨0, false⟩ 1 Host.blank _ ops rfl rfl
    (by decide +kernel) (by decide +kernel) (by decide +kernel)
  obtain ⟨-, hSize, -⟩ := hSteps 7 (by decide)
  obtain ⟨-, -, hLargest⟩ := hSteps 4 (by decide)
  exact ⟨_, rfl, hRun, hSize, hLargest _ rfl⟩

end World

end ArenaRegistry.Arena
