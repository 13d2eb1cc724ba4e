import ArenaRegistry.Proofs.Arena.Roster
import ArenaRegistry.Proofs.Arena.Traffic

/-! How large the numbers get that an arena holds. No block is larger than the largest request in
whole grains, however an allocation grows; the number of the next mark counts the marks that were
pushed; and addresses are words, if the source grants no block that wraps the address space. -/

namespace ArenaRegistry

theorem Size.roundUp_mono {m n : Nat} (h : m ≤ n) : roundUp m ≤ roundUp n := by
  unfold roundUp
  omega

namespace Arena

/-- The largest block that an arena asks for. -/
def largestBlock : Nat := Size.roundUp Size.largest

/-- The chunk size is one that is accepted, and no block is larger than the largest. -/
structure Sized (a : Arena) : Prop where
  chunkSize_le : a.chunkSize ≤ Size.roundUp Settings.maxChunk
  block_le : ∀ b ∈ a.held, b.size ≤ largestBlock

theorem roundUp_le_largestBlock {n : Nat} (h : ¬InvalidRequest n) :
    Size.roundUp n ≤ largestBlock :=
  Size.roundUp_mono (Nat.le_of_not_lt fun hLess => h (.inr hLess))

namespace Sized

variable {a a' : Arena} {block : Span}

/-- An arena stays within the sizes if each block that it gets does. -/
theorem of_held (h : a.Sized) (hChunk : a'.chunkSize = a.chunkSize)
    (hHeld : ∀ b ∈ a'.held, b ∈ a.held ∨ b.size ≤ largestBlock) : a'.Sized :=
  ⟨hChunk ▸ h.chunkSize_le, fun b hb => (hHeld b hb).elim (h.block_le b) fun hSize => hSize⟩

theorem chunkSizeFor_le (h : a.Sized) {n : Nat} (hn : n ≤ largestBlock) :
    a.chunkSizeFor n ≤ largestBlock := by
  have hChunk := h.chunkSize_le
  have hMax : Size.roundUp Settings.maxChunk ≤ largestBlock := by decide
  have hLargest : Size.largest ≤ largestBlock := Size.le_roundUp _
  unfold chunkSizeFor
  split
  · split <;> omega
  · omega

theorem mapTop (h : a.Sized) (f : Mark → Mark) : (a.mapTop f).Sized :=
  h.of_held rfl fun _ => .inl

theorem addChunk (h : a.Sized) (hBlock : block.size ≤ largestBlock) : (a.addChunk block).Sized := by
  refine h.of_held rfl fun b hb => ?_
  simp only [held, Arena.addChunk, List.mem_append, List.mem_singleton] at hb ⊢
  rcases hb with (hb | rfl) | hb
  · exact .inl (.inl hb)
  · exact .inr hBlock
  · exact .inl (.inr hb)

theorem openChunk (h : a.Sized) (hBlock : block.size ≤ largestBlock) (n : Nat) :
    (a.openChunk block n).Sized := by
  unfold Arena.openChunk
  exact (h.addChunk hBlock).mapTop _

theorem addBig (h : a.Sized) (hBlock : block.size ≤ largestBlock) : (a.addBig block).Sized := by
  refine h.of_held rfl fun b hb => ?_
  simp only [held, Arena.addBig, Arena.mapTop, List.mem_append, List.mem_singleton] at hb ⊢
  rcases hb with hb | hb | rfl
  · exact .inl (.inl hb)
  · exact .inl (.inr hb)
  · exact .inr hBlock

theorem replaceBig (h : a.Sized) (hBlock : block.size ≤ largestBlock) :
    (a.replaceBig block).Sized := by
  refine h.of_held rfl fun b hb => ?_
  rcases List.mem_append.mp hb with hb | hb
  · exact .inl (List.mem_append_left _ hb)
  rcases List.mem_or_eq_of_mem_set hb with hb | rfl
  · exact .inl (List.mem_append_right _ hb)
  · exact .inr hBlock

theorem pushMark (h : a.Sized) (chunkCount free : Nat) (last : Option Nat) :
    (a.pushMark chunkCount free last).Sized :=
  h.of_held rfl fun _ => .inl

theorem cutTo (h : a.Sized) (depth : Nat) : (a.cutTo depth).Sized :=
  h.of_held rfl fun _ hb =>
    .inl (((List.take_sublist _ _).append (List.take_sublist _ _)).subset hb)

end Sized

namespace World

variable {σ : Type} {w : World σ}

/-! ### The sizes of blocks -/

/-- A block that is granted has the size that was asked for. -/
theorem acquire_sized (h : w.arena.Sized) {n : Nat} (hn : n ≤ largestBlock) :
    Outcome (fun block w' => block.size ≤ largestBlock ∧ w'.arena.Sized) (fun w' => w'.arena.Sized)
      (w.acquire n) := by
  unfold World.acquire Host.acquire
  rcases w.source.request n w.host.store with ⟨_ | grant, store⟩
  · exact h
  · exact ⟨hn, h⟩

theorem allocInChunk_sized (h : w.arena.Sized) {bytes : Nat} (hBytes : bytes ≤ largestBlock)
    (n : Nat) : (w.allocInChunk bytes n).2.arena.Sized := by
  have hAcquire := acquire_sized h hBytes
  unfold allocInChunk
  rcases hr : w.acquire bytes with ⟨_ | block, w'⟩ <;> rw [hr] at hAcquire
  · exact hAcquire
  · exact hAcquire.2.openChunk hAcquire.1 n

theorem allocBig_sized (h : w.arena.Sized) {n : Nat} (hn : n ≤ largestBlock) :
    (w.allocBig n).2.arena.Sized := by
  have hAcquire := acquire_sized h hn
  unfold allocBig
  rcases hr : w.acquire n with ⟨_ | block, w'⟩ <;> rw [hr] at hAcquire
  · exact hAcquire
  · exact hAcquire.2.addBig hAcquire.1

theorem carve_sized (h : w.arena.Sized) (size : Nat) (claim : Claim) :
    (w.carve size claim).2.arena.Sized := by
  unfold carve
  split
  · exact h
  next hValid =>
  have hSize := roundUp_le_largestBlock hValid
  simp only
  split
  · exact h.mapTop _
  next bytes hRoute =>
    refine allocInChunk_sized h ?_ _
    rw [← bytes_of_route_chunk hRoute]
    exact h.chunkSizeFor_le hSize
  · exact allocBig_sized h hSize

theorem enterMark_sized (h : w.arena.Sized) : w.enterMark.2.arena.Sized := by
  unfold enterMark
  split
  · exact h.pushMark _ _ _
  have hAcquire := acquire_sized h (Nat.le_trans h.chunkSize_le (by decide))
  rcases hr : w.acquire w.arena.chunkSize with ⟨_ | block, w'⟩ <;> rw [hr] at hAcquire
  · exact hAcquire
  · exact (hAcquire.2.addChunk hAcquire.1).pushMark _ _ _

theorem enterFrame_sized (h : w.arena.Sized) (size : Nat) (claim : Claim) :
    (w.enterFrame size claim).2.arena.Sized := by
  unfold enterFrame
  split
  · exact h
  split
  · exact h.pushMark _ _ _
  have hEnter := enterMark_sized h
  rcases hr : w.enterMark with ⟨_ | handle, w₁⟩ <;> rw [hr] at hEnter
  · exact hEnter
  have hCarve := carve_sized hEnter size claim
  rcases hr' : w₁.carve size claim with ⟨_ | span, w₂⟩ <;> simp only [hr'] at hCarve ⊢
  · exact hCarve.cutTo _
  · exact hCarve

theorem popMark_sized (h : w.arena.Sized) (handle : Handle) :
    (w.popMark handle).2.arena.Sized := by
  unfold popMark
  split
  · split
    · exact h
    · exact h.cutTo _
  · exact h

theorem popFrame_sized (h : w.arena.Sized) : w.popFrame.arena.Sized := by
  unfold popFrame
  split
  · exact h
  · exact h.cutTo _

theorem moveLast_sized (h : w.arena.Sized) (last increment grown : Nat) :
    (w.moveLast last increment grown).2.arena.Sized := by
  unfold moveLast
  simp only
  split
  · exact h
  next hLarge =>
  split
  · have hAcquire :=
      acquire_sized h (Nat.le_trans (Nat.le_of_not_lt hLarge) (Size.le_roundUp Size.largest))
    unfold moveBig
    rcases hr : w.acquire (w.arena.sizeOfLast last + grown) with ⟨_ | block, w'⟩ <;>
      rw [hr] at hAcquire
    · exact hAcquire
    · exact hAcquire.2.replaceBig hAcquire.1
  · have hCarve := carve_sized h (w.arena.sizeOfLast last + grown) .exact
    unfold moveFromChunk
    rcases hr : w.carve (w.arena.sizeOfLast last + grown) .exact with ⟨_ | span, w'⟩ <;>
      rw [hr] at hCarve
    · exact hCarve
    · exact hCarve

theorem expandLast_sized (h : w.arena.Sized) (increment : Nat) (inPlace : Bool) :
    (w.expandLast increment inPlace).2.arena.Sized := by
  unfold expandLast
  split
  · rw [addressOf_snd]
    exact carve_sized h increment .exact
  split
  · exact h
  simp only
  split
  · exact h.mapTop _
  split
  · exact h
  · exact moveLast_sized h _ _ _

theorem shrinkLast_sized (h : w.arena.Sized) (decrement : Nat) :
    (w.shrinkLast decrement).2.arena.Sized := by
  unfold shrinkLast
  split
  · exact h
  simp only
  split
  · exact h
  · exact h.mapTop _

theorem resizeLast_sized (h : w.arena.Sized) (size : Nat) (inPlace : Bool) :
    (w.resizeLast size inPlace).2.arena.Sized := by
  unfold resizeLast
  split
  · exact h
  split
  · exact h
  simp only
  split
  · exact h.mapTop _
  split
  · exact shrinkLast_sized h _
  · exact expandLast_sized h _ _

/-- No call asks for too large a block. -/
theorem step_sized (h : w.arena.Sized) (op : Op) : (w.step op).2.arena.Sized := by
  cases op with
  | alloc size | allocMin size =>
    simp only [step, alloc, allocMin, replied_snd, policed_snd, addressOf_snd]
    exact carve_sized h size _
  | pushMark =>
    simp only [step, pushMark, replied_snd, policed_snd]
    exact enterMark_sized h
  | pushFrame size | pushFrameMin size =>
    simp only [step, pushFrame, pushFrameMin, replied_snd, policed_snd, addressOf_snd]
    exact enterFrame_sized h size _
  | popMark handle =>
    simp only [step, replied_snd, reported_snd]
    exact popMark_sized h handle
  | popFrame => exact popFrame_sized h
  | expandLast increment inPlace =>
    simp only [step, replied_snd, reported_snd]
    exact expandLast_sized h increment inPlace
  | shrinkLast decrement =>
    simp only [step, replied_snd, reported_snd]
    exact shrinkLast_sized h decrement
  | resizeLast size inPlace =>
    simp only [step, replied_snd, reported_snd]
    exact resizeLast_sized h size inPlace

theorem run_sized (h : w.arena.Sized) (ops : List Op) : (w.run ops).arena.Sized := by
  induction ops generalizing w with
  | nil => exact h
  | cons op ops ih => exact ih (step_sized h op)

theorem start_sized {src : BlockSource σ} {settings : Settings} {id : Nat} {host : Host (Traced σ)}
    {w : World (Traced σ)} (hStart : (start src.traced settings id host).1 = .ok w) :
    w.arena.Sized := by
  obtain ⟨-, b, hArena, -⟩ := exists_start hStart
  have hValid : settings.chunkSize ≤ Settings.maxChunk := by
    refine Nat.le_of_not_lt fun hLarge => ?_
    simp [start, Settings.validate, hLarge] at hStart
  have hChunk : settings.effectiveChunkSize ≤ Size.roundUp Settings.maxChunk :=
    Size.roundUp_mono (Nat.max_le.mpr ⟨hValid, by decide⟩)
  rw [hArena]
  refine ⟨hChunk, fun block hBlock => ?_⟩
  obtain rfl := List.mem_singleton.mp hBlock
  exact Nat.le_trans hChunk (by decide)

/-! ### The number of marks -/

variable (w)

/-- The marks that pushing one puts on the stack: none if there is no chunk for it. -/
def entered : Nat := if w.enterMark.1.isOk then 1 else 0

/-- The marks that pushing a frame puts on the stack. One that is popped again because there is no
memory for its request counts too. -/
def framed (size : Nat) : Nat :=
  if InvalidRequest size then 0
  else if w.arena.fitsFrame (Size.roundUp size) then 1
  else w.entered

def pushes : Op → Nat
  | .pushMark => w.entered
  | .pushFrame size | .pushFrameMin size => w.framed size
  | _ => 0

/-- The marks that a run puts on the stack, those that are popped again included. -/
def pushed (w : World σ) : List Op → Nat
  | [] => 0
  | op :: ops => w.pushes op + pushed (w.step op).2 ops

theorem enterMark_next : w.enterMark.2.arena.nextMarkId = w.arena.nextMarkId + w.entered := by
  have hEnter := w.enterMark_roster
  unfold entered
  rcases hr : w.enterMark with ⟨_ | handle, w'⟩ <;> rw [hr] at hEnter
  · exact congrArg Roster.next hEnter
  · exact congrArg Roster.next hEnter.1

theorem carve_next (size : Nat) (claim : Claim) :
    (w.carve size claim).2.arena.nextMarkId = w.arena.nextMarkId :=
  congrArg Roster.next (w.carve_roster size claim)

theorem enterFrame_next (size : Nat) (claim : Claim) :
    (w.enterFrame size claim).2.arena.nextMarkId = w.arena.nextMarkId + w.framed size := by
  unfold enterFrame framed
  split
  · rfl
  split
  · rfl
  have hEnter := w.enterMark_next
  rcases hr : w.enterMark with ⟨_ | handle, w₁⟩ <;> simp only [hr] at hEnter ⊢
  · exact hEnter
  have hCarve := w₁.carve_next size claim
  rcases hr' : w₁.carve size claim with ⟨_ | span, w₂⟩ <;> simp only [hr'] at hCarve ⊢
  · exact hCarve.trans hEnter
  · exact hCarve.trans hEnter

/-- Marks are numbered as they are pushed. -/
theorem step_next (op : Op) :
    (w.step op).2.arena.nextMarkId = w.arena.nextMarkId + w.pushes op := by
  cases op with
  | alloc size | allocMin size =>
    simp only [step, alloc, allocMin, replied_snd, policed_snd, addressOf_snd]
    exact w.carve_next size _
  | pushMark =>
    simp only [step, pushMark, replied_snd, policed_snd]
    exact w.enterMark_next
  | pushFrame size | pushFrameMin size =>
    simp only [step, pushFrame, pushFrameMin, replied_snd, policed_snd, addressOf_snd]
    exact w.enterFrame_next size _
  | popMark handle =>
    simp only [step, replied_snd, reported_snd, popMark]
    split
    · split <;> rfl
    · rfl
  | popFrame =>
    simp only [step, popFrame]
    split <;> rfl
  | expandLast increment inPlace =>
    simp only [step, replied_snd, reported_snd]
    exact congrArg Roster.next (w.expandLast_roster increment inPlace)
  | shrinkLast decrement =>
    simp only [step, replied_snd, reported_snd]
    exact congrArg Roster.next (w.shrinkLast_roster decrement)
  | resizeLast size inPlace =>
    simp only [step, replied_snd, reported_snd]
    exact congrArg Roster.next (w.resizeLast_roster size inPlace)

theorem pushed_append (w : World σ) (ops ops' : List Op) :
    w.pushed (ops ++ ops') = w.pushed ops + (w.run ops).pushed ops' := by
  induction ops generalizing w with
  | nil => exact (Nat.zero_add _).symm
  | cons op ops ih =>
    rw [List.cons_append, pushed, ih, pushed, Nat.add_assoc]
    rfl

theorem run_next (w : World σ) (ops : List Op) :
    (w.run ops).arena.nextMarkId = w.arena.nextMarkId + w.pushed ops := by
  induction ops generalizing w with
  | nil => rfl
  | cons op ops ih =>
    show ((w.step op).2.run ops).arena.nextMarkId = _
    rw [ih, w.step_next, pushed, Nat.add_assoc]

end World

/-! ### Addresses -/

/-- An arena that is well formed, the blocks of which are of sizes and at addresses that are words. -/
structure Addressable (a : Arena) : Prop where
  wellFormed : a.WellFormed
  sized : a.Sized
  space : ∀ b ∈ a.held, b.InSpace (2 ^ 64)

theorem sizeOfLast_le_free {a : Arena} {last : Nat} (hNotBig : a.isBig last = false) :
    a.sizeOfLast last ≤ a.top.free := by
  rw [sizeOfLast_of_not_isBig hNotBig]
  exact Nat.sub_le _ _

namespace Addressable

variable {a : Arena}

theorem chunk_size_le (h : a.Addressable) : a.chunk.size ≤ largestBlock :=
  h.sized.block_le _ (List.mem_append_left _ h.wellFormed.chunk_mem)

theorem remaining_le (h : a.Addressable) : a.remaining ≤ largestBlock :=
  Nat.le_trans (Nat.sub_le _ _) h.chunk_size_le

/-- What is used of the current chunk and the size of a block are a word together. -/
theorem free_add_lt (h : a.Addressable) {n : Nat} (hn : n ≤ largestBlock) :
    a.top.free + n < 2 ^ 64 := by
  have hFree := Nat.le_trans h.wellFormed.free_le h.chunk_size_le
  have hWord : largestBlock + largestBlock < 2 ^ 64 := by decide
  omega

theorem sizeOfLast_le (h : a.Addressable) {last : Nat} (hLast : a.top.last = some last) :
    a.sizeOfLast last ≤ largestBlock := by
  obtain ⟨below, -, hSits, -⟩ := h.wellFormed.exists_below
  cases hBig : a.isBig last with
  | true =>
    obtain ⟨-, block, hBlock, rfl⟩ := hSits.own_of_isBig hLast hBig
    rw [sizeOfLast_of_topBig hBlock]
    exact h.sized.block_le _ (List.mem_append_right _ (bigAt?_mem hBlock))
  | false =>
    exact Nat.le_trans (sizeOfLast_le_free hBig)
      (Nat.le_trans h.wellFormed.free_le h.chunk_size_le)

end Addressable

namespace Traffic

/-- Only a block that was granted is out. -/
theorem granted_of_outstanding {traffic : List Traffic} {block : Span}
    (h : block ∈ outstanding traffic) : granted block ∈ traffic := by
  have hAfter (rest : List Traffic) (out : List Span) (hOut : block ∈ rest.foldl after out) :
      block ∈ out ∨ granted block ∈ rest := by
    induction rest generalizing out with
    | nil => exact .inl hOut
    | cons event rest ih =>
      rcases ih _ hOut with hNow | hLater
      · cases event with
        | granted other =>
          rcases List.mem_cons.mp hNow with rfl | hBefore
          · exact .inr List.mem_cons_self
          · exact .inl hBefore
        | refused size => exact .inl hNow
        | released other => exact .inl (List.mem_of_mem_erase hNow)
      · exact .inr (List.mem_cons_of_mem _ hLater)
  exact (hAfter traffic [] h).resolve_left List.not_mem_nil

end Traffic

namespace World

open Traffic (Lawful)

variable {σ : Type} {src : BlockSource σ} {w w' : World (Traced σ)}

theorem Orderly.addressable (h : w.Orderly src) (hSized : w.arena.Sized)
    (hLawful : Lawful w.traffic) : w.arena.Addressable := by
  refine ⟨h.wellFormed, hSized, fun block hBlock => ?_⟩
  exact hLawful.space _ (Traffic.granted_of_outstanding (h.balance.mem_iff.mpr hBlock))

/-- After the mark of a frame was pushed, the arena is addressable if it is so after the frame. -/
theorem enterMark_addressable (h : w.Orderly src) (hSized : w.arena.Sized) {size : Nat}
    {claim : Claim} (hValid : ¬InvalidRequest size)
    (hFull : ¬w.arena.fitsFrame (Size.roundUp size) = true)
    (hLawful : Lawful (w.enterFrame size claim).2.traffic) {handle : Handle}
    (hEnter : w.enterMark = (.ok handle, w')) : w'.arena.Addressable := by
  have hEntered := enterMark_outcome h.source
  have hSizedAfter := enterMark_sized hSized
  rw [hEnter] at hEntered hSizedAfter
  obtain ⟨-, e, hEdits, -⟩ := hEntered
  have hSource := hEdits.source.trans h.source
  have hGrows : w'.traffic <+: (w.enterFrame size claim).2.traffic := by
    have hCarve := (carve_advances hSource 0 size claim).traffic_grows
    simp only [enterFrame, if_neg hValid, if_neg hFull, hEnter]
    have hSourceAfter := (carve_advances hSource 0 size claim).source.trans hSource
    rcases hr : w'.carve size claim with ⟨_ | span, w''⟩ <;>
      simp only [hr] at hCarve hSourceAfter ⊢
    · refine hCarve.trans ?_
      simp [World.cutTo, release_traffic hSourceAfter]
    · exact hCarve
  have hPast := hLawful.before hGrows
  exact (hEdits.orderly h hPast.sound).addressable hSizedAfter hPast

end World

end Arena

end ArenaRegistry
