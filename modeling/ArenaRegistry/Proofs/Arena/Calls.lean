import ArenaRegistry.Proofs.Arena.Edit

/-! The edits that the functions on worlds make. Each of them makes none, one, or, for a frame that
is not carved at once, one to push the mark and another under it. -/

namespace ArenaRegistry.Arena

theorem le_chunkSizeFor (a : Arena) (n : Nat) : n ≤ a.chunkSizeFor n := by
  unfold chunkSizeFor
  split
  · split <;> omega
  · omega

theorem chunkSizeFor_isWhole {a : Arena} {n : Nat} (hChunk : Size.IsWhole a.chunkSize)
    (hWhole : Size.IsWhole n) : Size.IsWhole (a.chunkSizeFor n) := by
  unfold Size.IsWhole chunkSizeFor at *
  split
  · split <;> omega
  · omega

theorem route_bump {a : Arena} {n : Nat} : a.route n = .bump ↔ n ≤ a.remaining := by
  unfold route
  split
  · simp [*]
  · split <;> simp [*]

theorem bytes_of_route_chunk {a : Arena} {n bytes : Nat} (h : a.route n = .chunk bytes) :
    a.chunkSizeFor n = bytes := by
  unfold route at h
  split at h
  · cases h
  · split at h
    · cases h; rfl
    · cases h

theorem cramped_of_route_chunk {a : Arena} {n bytes : Nat} (h : a.route n = .chunk bytes) :
    a.remaining < a.chunkSize / 8 := by
  unfold route at h
  split at h
  · cases h
  · split at h
    · assumption
    · cases h

theorem le_of_route_chunk {a : Arena} {n bytes : Nat} (h : a.route n = .chunk bytes) :
    n ≤ bytes := by
  rw [← bytes_of_route_chunk h]
  exact a.le_chunkSizeFor n

theorem roundUp_pos {n : Nat} (h : ¬InvalidRequest n) : 0 < Size.roundUp n := by
  have := Size.le_roundUp n
  unfold InvalidRequest at h
  omega

theorem depth_of_enters {e : Edit} {a : Arena} (h : e.Enters) :
    (a.edit e).depth = a.marks.length := by
  cases e with
  | enter => simp [edit, Arena.pushMark, Arena.depth]
  | enterOwn block => simp [edit, Arena.pushMark, Arena.addChunk, Arena.depth]
  | _ => exact h.elim

namespace World

/-! ### Results -/

section Outcome

variable {σ α β ε : Type}

/-- What holds of a result: one thing of an answer and the world it leaves, and another of the world
that a failure leaves. -/
def Outcome (ok : α → World σ → Prop) (fail : World σ → Prop) : Except ε α × World σ → Prop
  | (.ok answer, w) => ok answer w
  | (.error _, w) => fail w

variable {ok ok' : α → World σ → Prop} {fail fail' : World σ → Prop}

theorem Outcome.mono {r : Except ε α × World σ} (h : Outcome ok fail r)
    (hOk : ∀ answer w, ok answer w → ok' answer w) (hFail : ∀ w, fail w → fail' w) :
    Outcome ok' fail' r := by
  rcases r with ⟨_ | answer, w⟩
  · exact hFail w h
  · exact hOk answer w h

theorem Outcome.policed {r : Except Error α × World σ} (h : Outcome ok fail r) :
    Outcome ok fail (policed r) := by
  rcases r with ⟨_ | answer, w⟩ <;> exact h

theorem Outcome.reported {r : Except Error α × World σ} (h : Outcome ok fail r) :
    Outcome ok fail (reported r) := by
  rcases r with ⟨_ | answer, w⟩ <;> exact h

theorem Outcome.addressOf {ok : Nat → World σ → Prop} {r : Except Error Span × World σ}
    (h : Outcome (fun span w => ok span.start w) fail r) : Outcome ok fail (addressOf r) := by
  rcases r with ⟨_ | span, w⟩ <;> exact h

@[simp] theorem policed_snd (r : Except Error α × World σ) : (World.policed r).2 = r.2 := by
  rcases r with ⟨_ | answer, w⟩ <;> rfl

@[simp] theorem reported_snd (r : Except Error α × World σ) : (World.reported r).2 = r.2 := by
  rcases r with ⟨_ | answer, w⟩ <;> rfl

@[simp] theorem addressOf_snd (r : Except Error Span × World σ) : (World.addressOf r).2 = r.2 := by
  rcases r with ⟨_ | span, w⟩ <;> rfl

@[simp] theorem replied_snd (f : α → Reply) (r : Except Failure α × World σ) :
    (Arena.replied f r).2 = r.2 := by
  rcases r with ⟨_ | answer, w⟩ <;> rfl

theorem Outcome.replied {f : α → Reply} {ok : Reply → World σ → Prop}
    {r : Except Failure α × World σ} (h : Outcome (fun answer w => ok (f answer) w) fail r) :
    Outcome ok fail (replied f r) := by
  rcases r with ⟨_ | answer, w⟩ <;> exact h

end Outcome

variable {σ : Type} {src : BlockSource σ} {w w' : World (Traced σ)}

/-- A world gets a block: nothing but the traffic changes, and memory inside the block. -/
structure Gets (w : World (Traced σ)) (block : Span) (w' : World (Traced σ)) : Prop where
  source : w'.source = w.source
  arena : w'.arena = w.arena
  traffic : w'.traffic = w.traffic ++ [.granted block]
  memory : ∀ address, ¬block.Contains address → w'.memory address = w.memory address

theorem acquire_outcome (hs : w.source = src.traced) (n : Nat) :
    Outcome (fun block w' => block.size = n ∧ w.Gets block w') (w.Edits (.refuse n))
      (w.acquire n) := by
  rcases hr : src.request n w.host.store.inner with ⟨_ | grant, inner⟩
  · have hRequest : w.source.request n w.host.store =
        (none, ⟨inner, w.host.store.traffic ++ [.refused n]⟩) := by
      rw [hs]; simp only [BlockSource.traced, hr]
    simp only [World.acquire, Host.acquire, hRequest]
    exact ⟨trivial, rfl, rfl, rfl, fun _ _ => rfl⟩
  · have hRequest : w.source.request n w.host.store =
        (some grant, ⟨inner, w.host.store.traffic ++ [.granted ⟨grant.start, n⟩]⟩) := by
      rw [hs]; simp only [BlockSource.traced, hr]
    simp only [World.acquire, Host.acquire, hRequest]
    exact ⟨rfl, rfl, rfl, rfl, fun _ h => Memory.paint_of_not_contains h⟩

/-- A failed call that asks for one block leaves the world as it was, or with a refusal. -/
def Fails (w w' : World (Traced σ)) : Prop := w' = w ∨ ∃ n, w.Edits (.refuse n) w'

theorem Fails.arena (h : w.Fails w') : w'.arena = w.arena := by
  rcases h with rfl | ⟨n, h⟩
  · rfl
  · exact h.arena

theorem Fails.source (h : w.Fails w') : w'.source = w.source := by
  rcases h with rfl | ⟨n, h⟩
  · rfl
  · exact h.source

/-! ### Allocating -/

/-- A request is served by an edit. An exact one gets its size in whole grains, and one that does
not fit in the current chunk gets a new block. -/
structure Serves (w : World (Traced σ)) (size : Nat) (claim : Claim) (e : Edit) (span : Span)
    (w' : World (Traced σ)) : Prop where
  edits : w.Edits e w'
  carves : e.Carves w.arena span
  exact : claim = .exact → span.size = Size.roundUp size
  fresh : w.arena.remaining < Size.roundUp size → e.block?.isSome

theorem allocInChunk_outcome (hs : w.source = src.traced) {bytes n : Nat}
    (hWhole : Size.IsWhole n) (hPos : 0 < n) (hRoute : w.arena.route n = .chunk bytes) :
    Outcome (fun span w' => span.size = n ∧ ∃ block, w.Edits (.openChunk block n) w' ∧
      span = ⟨block.start, n⟩) w.Fails (w.allocInChunk bytes n) := by
  have h := acquire_outcome hs bytes
  unfold allocInChunk
  rcases hr : w.acquire bytes with ⟨_ | block, w'⟩ <;> rw [hr] at h
  · exact .inr ⟨bytes, h⟩
  · obtain ⟨hSize, hGets⟩ := h
    refine ⟨rfl, block, ⟨⟨hWhole, hPos, hSize ▸ hRoute⟩, hGets.source, ?_, hGets.traffic,
      fun address hOut => hGets.memory address (hOut _ rfl)⟩, rfl⟩
    simp [hGets.arena, edit]

theorem allocBig_outcome (hs : w.source = src.traced) {n : Nat} (hWhole : Size.IsWhole n)
    (hPos : 0 < n) (hRoute : w.arena.route n = .big) :
    Outcome (fun span w' => span.size = n ∧ w.Edits (.addBig span) w') w.Fails (w.allocBig n) := by
  have h := acquire_outcome hs n
  unfold allocBig
  rcases hr : w.acquire n with ⟨_ | block, w'⟩ <;> rw [hr] at h
  · exact .inr ⟨n, h⟩
  · obtain ⟨rfl, hGets⟩ := h
    refine ⟨rfl, ⟨hWhole, hPos, hRoute⟩, hGets.source, ?_, hGets.traffic,
      fun address hOut => hGets.memory address (hOut _ rfl)⟩
    simp [hGets.arena, edit]

theorem bump_serves {size : Nat} (claim : Claim) (h : ¬InvalidRequest size)
    (hRoom : Size.roundUp size ≤ w.arena.remaining) :
    w.Serves size claim (.bump (claim.taken (Size.roundUp size) w.arena.remaining))
      ⟨w.arena.nextFree, claim.taken (Size.roundUp size) w.arena.remaining⟩
      (w.withArena (w.arena.bump (claim.taken (Size.roundUp size) w.arena.remaining))) := by
  have hPos := roundUp_pos h
  refine ⟨⟨?_, rfl, rfl, (List.append_nil _).symm, fun _ _ => rfl⟩, rfl, by rintro rfl; rfl,
    fun hLess => absurd hLess (Nat.not_lt.mpr hRoom)⟩
  cases claim with
  | exact => exact ⟨hPos, hRoom, .inl (Size.isWhole_roundUp size)⟩
  | rest => exact ⟨Nat.lt_of_lt_of_le hPos hRoom, Nat.le_refl _, .inr rfl⟩

/-- A request is served by one edit, or fails with at most a refusal. -/
theorem carve_outcome (hs : w.source = src.traced) (size : Nat) (claim : Claim) :
    Outcome (fun span w' => ∃ e, w.Serves size claim e span w') w.Fails (w.carve size claim) := by
  by_cases hBad : InvalidRequest size
  · simp only [carve, if_pos hBad]
    exact .inl rfl
  have hWhole := Size.isWhole_roundUp size
  have hPos := roundUp_pos hBad
  rcases hRoute : w.arena.route (Size.roundUp size) with _ | bytes | _ <;>
    simp only [carve, if_neg hBad, hRoute]
  · exact ⟨_, bump_serves claim hBad (route_bump.mp hRoute)⟩
  · refine (allocInChunk_outcome hs hWhole hPos hRoute).mono ?_ fun _ h => h
    rintro span w' ⟨hSize, block, hEdit, rfl⟩
    exact ⟨_, hEdit, rfl, fun _ => hSize, fun _ => rfl⟩
  · refine (allocBig_outcome hs hWhole hPos hRoute).mono ?_ fun _ h => h
    rintro span w' ⟨hSize, hEdit⟩
    exact ⟨_, hEdit, rfl, fun _ => hSize, fun _ => rfl⟩

/-! ### Marks and frames -/

theorem edits_cutTo (hs : w.source = src.traced) {depth : Nat} (h : depth ≤ w.arena.depth) :
    w.Edits (.cutTo depth) (w.cutTo depth) :=
  ⟨h, rfl, rfl, by simp [World.cutTo, release_traffic hs, Edit.traffic], fun _ _ => rfl⟩

theorem enterMark_outcome (hs : w.source = src.traced) :
    Outcome (fun handle w' => handle = w'.arena.topHandle ∧ ∃ e, w.Edits e w' ∧ e.Enters) w.Fails
      w.enterMark := by
  by_cases hRoom : footprint ≤ w.arena.remaining
  · rw [enterMark, if_pos hRoom]
    exact ⟨rfl, .enter, ⟨hRoom, rfl, rfl, (List.append_nil _).symm, fun _ _ => rfl⟩, trivial⟩
  rw [enterMark, if_neg hRoom]
  have h := acquire_outcome hs w.arena.chunkSize
  rcases hr : w.acquire w.arena.chunkSize with ⟨_ | block, w'⟩ <;> rw [hr] at h
  · exact .inr ⟨_, h⟩
  · obtain ⟨hSize, hGets⟩ := h
    refine ⟨rfl, .enterOwn block, ⟨⟨Nat.lt_of_not_le hRoom, hSize⟩, hGets.source, ?_, hGets.traffic,
      fun address hOut => hGets.memory address (hOut _ rfl)⟩, trivial⟩
    simp [hGets.arena, edit, addChunk]

/-- How a frame is made: its mark and its allocation are carved at once, or one after the other. -/
inductive Framed (w : World (Traced σ)) (span : Span) : World (Traced σ) → Prop
  | fused {w' : World (Traced σ)} (n : Nat) (fuse : w.Edits (.fuse n) w')
      (eq : span = ⟨w.arena.chunk.start + (w.arena.top.free + footprint), n⟩) : Framed w span w'
  | split {w₁ w' : World (Traced σ)} {e e' : Edit} (enter : w.Edits e w₁) (enters : e.Enters)
      (carve : w₁.Edits e' w') (carves : e'.Carves w₁.arena span) : Framed w span w'

/-- How a frame fails: for want of a mark, or for want of memory under the mark, which is popped
again. -/
inductive FrameFails (w : World (Traced σ)) : World (Traced σ) → Prop
  | early {w' : World (Traced σ)} (fails : w.Fails w') : FrameFails w w'
  | late {w₁ w₂ w' : World (Traced σ)} {e : Edit} (enter : w.Edits e w₁) (enters : e.Enters)
      (fails : w₁.Fails w₂) (cut : w₂.Edits (.cutTo w.arena.depth) w') : FrameFails w w'

theorem fuseFrame_framed {n : Nat} (claim : Claim) (hPos : 0 < n) (hWhole : Size.IsWhole n)
    (hFits : w.arena.fitsFrame n = true) :
    w.Framed (w.fuseFrame n claim).1 (w.fuseFrame n claim).2 ∧
      (claim = .exact → (w.fuseFrame n claim).1.size = n) := by
  have hRoom : n + footprint ≤ w.arena.remaining := of_decide_eq_true hFits
  have hLeft : w.arena.chunk.size - (w.arena.top.free + footprint) =
      w.arena.remaining - footprint := by
    unfold Arena.remaining; omega
  refine ⟨.fused (claim.taken n (w.arena.remaining - footprint)) ⟨?_, rfl, ?_, ?_, ?_⟩ ?_, ?_⟩
  · cases claim with
    | exact => exact ⟨hPos, hRoom, .inl hWhole⟩
    | rest =>
      exact ⟨by simp only [Claim.taken]; omega, by simp only [Claim.taken]; omega,
        .inr (by simp only [Claim.taken]; omega)⟩
  · simp [fuseFrame, edit, hLeft]
  · simp [fuseFrame, Edit.traffic]
  · exact fun _ _ => rfl
  · simp [fuseFrame, hLeft]
  · rintro rfl; rfl

theorem enterFrame_outcome (hs : w.source = src.traced) (size : Nat) (claim : Claim) :
    Outcome (fun span w' => w.Framed span w' ∧ (claim = .exact → span.size = Size.roundUp size))
      w.FrameFails (w.enterFrame size claim) := by
  by_cases hBad : InvalidRequest size
  · simp only [enterFrame, if_pos hBad]
    exact .early (.inl rfl)
  by_cases hFits : w.arena.fitsFrame (Size.roundUp size) = true
  · simp only [enterFrame, if_neg hBad, if_pos hFits]
    exact fuseFrame_framed claim (roundUp_pos hBad) (Size.isWhole_roundUp size) hFits
  simp only [enterFrame, if_neg hBad, if_neg hFits]
  have h := enterMark_outcome hs
  rcases hr : w.enterMark with ⟨_ | handle, w₁⟩ <;> rw [hr] at h
  · exact .early h
  obtain ⟨hHandle, e, hEnter, hEnters⟩ := h
  have h' := carve_outcome (hEnter.source.trans hs) size claim
  rcases hr' : w₁.carve size claim with ⟨_ | span, w₂⟩ <;> simp only [hr'] at h' ⊢
  · have hDepth : w₁.arena.depth = w.arena.marks.length := by
      rw [hEnter.arena, depth_of_enters hEnters]
    have hBack : handle.depth - 1 = w.arena.depth := by
      rw [hHandle, show w₁.arena.topHandle.depth = w₁.arena.depth from rfl, hDepth]
      rfl
    rw [hBack]
    refine .late hEnter hEnters h' (edits_cutTo (h'.source.trans (hEnter.source.trans hs)) ?_)
    rw [h'.arena, hDepth]
    exact Nat.sub_le _ _
  · obtain ⟨e', hServes⟩ := h'
    exact ⟨.split hEnter hEnters hServes.edits hServes.carves, hServes.exact⟩

/-! ### The last allocation -/

/-- The first `used` bytes at `source` are at `target` afterwards, those apart that the granted
block covers. -/
def Carries (w : World (Traced σ)) (e : Edit) (source target used : Nat) (w' : World (Traced σ)) :
    Prop :=
  ∀ i < used, (∀ block ∈ e.block?, ¬block.Contains (source + i)) →
    w'.memory (target + i) = w.memory (source + i)

/-- How the last allocation, at `last`, gets another size and where it is then. -/
inductive Resized (w : World (Traced σ)) (last : Nat) : Nat → World (Traced σ) → Prop
  | same : Resized w last last w
  | extend {w' : World (Traced σ)} (n : Nat) (edit : w.Edits (.extend n) w') :
    Resized w last last w'
  | retract {w' : World (Traced σ)} (n : Nat) (edit : w.Edits (.retract n) w') :
      Resized w last last w'
  | replace {w' : World (Traced σ)} (block : Span) (edit : w.Edits (.replaceBig block) w')
      (carries : w.Carries (.replaceBig block) last block.start (w.arena.sizeOfLast last) w') :
      Resized w last block.start w'
  | move {w' : World (Traced σ)} (e : Edit) (span : Span) (edit : w.Edits e w')
      (carves : e.Carves w.arena span)
      (carries : w.Carries e last span.start (w.arena.sizeOfLast last) w') :
      Resized w last span.start w'

/-- Copying into the block that was granted for an edit is part of the edit. -/
theorem Edits.copy {e : Edit} {block target : Span} (h : w.Edits e w') (source : Nat) {used : Nat}
    (hBlock : e.block? = some block) (hTarget : target.Within block) (hUsed : used ≤ target.size) :
    w.Edits e (w'.copy source target.start used) ∧
      w.Carries e source target.start used (w'.copy source target.start used) := by
  refine ⟨⟨h.fits, h.source, h.arena, h.traffic, fun address hOut => ?_⟩, fun i hi hOut => ?_⟩
  · rw [← h.memory address hOut, copy_memory, Memory.copy]
    refine Memory.paint_of_not_contains fun hIn => hOut block hBlock ?_
    unfold Span.Within Span.Contains Span.stop at *
    simp only at hIn
    omega
  · rw [← h.memory _ hOut]
    exact Memory.copy_add hi

/-- The bytes that an edit serves a request with lie in the block that was granted for it. -/
theorem Edits.within {e : Edit} {block span : Span} (h : w.Edits e w')
    (hBlock : e.block? = some block) (hCarves : e.Carves w.arena span) : span.Within block := by
  cases e with
  | openChunk opened n =>
    obtain rfl : opened = block := Option.some.inj hBlock
    obtain rfl : span = ⟨opened.start, n⟩ := hCarves
    have := le_of_route_chunk h.fits.2.2
    exact ⟨Nat.le_refl _, by unfold Span.stop; simp only; omega⟩
  | addBig added =>
    obtain rfl : added = block := Option.some.inj hBlock
    obtain rfl : span = added := hCarves
    exact ⟨Nat.le_refl _, Nat.le_refl _⟩
  | bump n => cases hBlock
  | _ => exact hCarves.elim

/-- A big block moves to a new block of the size asked for, which takes its place. -/
theorem moveBig_replaces (hs : w.source = src.traced) {last grown : Nat}
    (hLast : w.arena.top.last = some last) (hBig : w.arena.isBig last = true)
    (hWhole : Size.IsWhole grown) :
    Outcome (fun p w' => ∃ block : Span, p = block.start ∧
        block.size = w.arena.sizeOfLast last + grown ∧ w.Edits (.replaceBig block) w' ∧
        w.Carries (.replaceBig block) last block.start (w.arena.sizeOfLast last) w') w.Fails
      (w.moveBig last (w.arena.sizeOfLast last) (w.arena.sizeOfLast last + grown)) := by
  have h := acquire_outcome hs (w.arena.sizeOfLast last + grown)
  unfold moveBig
  rcases hr : w.acquire (w.arena.sizeOfLast last + grown) with ⟨_ | block, w'⟩ <;> rw [hr] at h
  · exact .inr ⟨_, h⟩
  obtain ⟨hSize, hGets⟩ := h
  let replaced := (w'.release w.arena.topBig?.toList).withArena (w.arena.replaceBig block)
  have hEdits : w.Edits (.replaceBig block) replaced := by
    refine ⟨⟨last, grown, hLast, hBig, hWhole, hSize⟩, hGets.source, rfl, ?_,
      fun address hOut => hGets.memory address (hOut _ rfl)⟩
    rw [withArena_traffic, release_traffic (hGets.source.trans hs), hGets.traffic]
    simp [Edit.traffic]
  have hUsed : w.arena.sizeOfLast last ≤ block.size := by omega
  obtain ⟨hCopied, hCarries⟩ := hEdits.copy last rfl ⟨Nat.le_refl _, Nat.le_refl _⟩ hUsed
  simp only [copy_arena, hGets.arena]
  exact ⟨block, rfl, hSize, hCopied, hCarries⟩

theorem moveBig_outcome (hs : w.source = src.traced) {last grown : Nat}
    (hLast : w.arena.top.last = some last) (hBig : w.arena.isBig last = true)
    (hWhole : Size.IsWhole grown) :
    Outcome (w.Resized last) w.Fails
      (w.moveBig last (w.arena.sizeOfLast last) (w.arena.sizeOfLast last + grown)) := by
  refine (moveBig_replaces hs hLast hBig hWhole).mono ?_ fun _ h => h
  rintro p w' ⟨block, rfl, -, hEdits, hCarries⟩
  exact .replace block hEdits hCarries

/-- An allocation for which its chunk has no room moves to a new block. -/
theorem moveFromChunk_serves (hs : w.source = src.traced) (last : Nat) {grown : Nat}
    (hRoom : w.arena.remaining < grown) :
    Outcome (fun p w' => ∃ e block span, p = span.start ∧ e.block? = some block ∧
        span.size = Size.roundUp (w.arena.sizeOfLast last + grown) ∧ w.Edits e w' ∧
        e.Carves w.arena span ∧ w.Carries e last span.start (w.arena.sizeOfLast last) w') w.Fails
      (w.moveFromChunk last (w.arena.sizeOfLast last) (w.arena.sizeOfLast last + grown)) := by
  have h := carve_outcome hs (w.arena.sizeOfLast last + grown) .exact
  unfold moveFromChunk
  rcases hr : w.carve (w.arena.sizeOfLast last + grown) .exact with ⟨_ | span, w'⟩ <;> rw [hr] at h
  · exact h
  obtain ⟨e, hServes⟩ := h
  have hUp := Size.le_roundUp (w.arena.sizeOfLast last + grown)
  have hUsed : w.arena.sizeOfLast last ≤ span.size := by rw [hServes.exact rfl]; omega
  -- The request does not fit in the current chunk, so it was not a bump that served it.
  obtain ⟨block, hBlock⟩ := Option.isSome_iff_exists.mp (hServes.fresh (by omega))
  obtain ⟨hCopied, hCarries⟩ := hServes.edits.copy last hBlock
    (hServes.edits.within hBlock hServes.carves) hUsed
  exact ⟨e, block, span, rfl, hBlock, hServes.exact rfl, hCopied, hServes.carves, hCarries⟩

theorem moveFromChunk_outcome (hs : w.source = src.traced) (last : Nat) {grown : Nat}
    (hRoom : w.arena.remaining < grown) :
    Outcome (w.Resized last) w.Fails
      (w.moveFromChunk last (w.arena.sizeOfLast last) (w.arena.sizeOfLast last + grown)) := by
  refine (moveFromChunk_serves hs last hRoom).mono ?_ fun _ h => h
  rintro p w' ⟨e, block, span, rfl, -, -, hEdits, hCarves, hCarries⟩
  exact .move e span hEdits hCarves hCarries

theorem expandLast_outcome (hs : w.source = src.traced) {last : Nat}
    (hLast : w.arena.top.last = some last) (increment : Nat) (inPlace : Bool) :
    Outcome (w.Resized last) w.Fails (w.expandLast increment inPlace) := by
  have hWhole := Size.isWhole_roundUp increment
  simp only [expandLast, hLast]
  split
  · exact .inl rfl
  split
  next hRoom =>
    simp only [Bool.not_eq_true'] at hRoom
    exact .extend _ ⟨⟨hWhole, hRoom.2, last, hLast, hRoom.1⟩, rfl, rfl, (List.append_nil _).symm,
      fun _ _ => rfl⟩
  next hRoom =>
    split
    · exact .inl rfl
    unfold moveLast
    simp only
    split
    · exact .inl rfl
    split
    next hBig => exact moveBig_outcome hs hLast hBig hWhole
    next hBig =>
      exact moveFromChunk_outcome hs last (Nat.lt_of_not_le fun h => hRoom ⟨by simpa using hBig, h⟩)

theorem expandLast_of_none (hLast : w.arena.top.last = none) (increment : Nat) (inPlace : Bool) :
    w.expandLast increment inPlace = addressOf (w.carve increment .exact) := by
  simp only [expandLast, hLast]

theorem shrinkLast_outcome {last : Nat} (hLast : w.arena.top.last = some last) (decrement : Nat) :
    Outcome (w.Resized last) w.Fails (w.shrinkLast decrement) := by
  simp only [shrinkLast, hLast]
  split
  · exact .same
  next h =>
    simp only [not_or, Bool.not_eq_true, Nat.not_lt] at h
    exact .retract _ ⟨⟨last, hLast, h.1, h.2, .inl (Size.isWhole_roundDown _)⟩, rfl, rfl,
      (List.append_nil _).symm, fun _ _ => rfl⟩

theorem resizeLast_outcome (hs : w.source = src.traced) {last : Nat}
    (hLast : w.arena.top.last = some last) (size : Nat) (inPlace : Bool) :
    Outcome (w.Resized last) w.Fails (w.resizeLast size inPlace) := by
  simp only [resizeLast, hLast]
  split
  · exact .inl rfl
  split
  next h =>
    simp only [Bool.not_eq_true'] at h
    refine .retract _ ⟨⟨last, hLast, h.1, Nat.sub_le _ _, .inr ?_⟩, rfl, rfl,
      (List.append_nil _).symm, fun _ _ => rfl⟩
    rw [show w.arena.sizeOfLast last - (w.arena.sizeOfLast last - Size.roundUp size) =
      Size.roundUp size by omega]
    exact Size.isWhole_roundUp size
  · split
    · exact shrinkLast_outcome hLast _
    · exact expandLast_outcome hs hLast _ _

/-! ### Calls -/

theorem Fails.advances (low : Nat) (h : w.Fails w') : Advances low w w' := by
  rcases h with rfl | ⟨n, h⟩
  · exact .done _
  · exact h.advances nofun

theorem Edits.advances_of_carves {e : Edit} {span : Span} (low : Nat) (h : w.Edits e w')
    (hCarves : e.Carves w.arena span) : Advances low w w' :=
  h.advances (by rintro depth rfl; exact hCarves.elim)

theorem Edits.advances_of_enters {e : Edit} (low : Nat) (h : w.Edits e w') (hEnters : e.Enters) :
    Advances low w w' :=
  h.advances (by rintro depth rfl; exact hEnters.elim)

theorem Framed.advances {span : Span} (low : Nat) (h : w.Framed span w') : Advances low w w' := by
  cases h with
  | fused n fuse _ => exact fuse.advances nofun
  | split enter enters carve carves =>
    exact (enter.advances_of_enters low enters).trans (carve.advances_of_carves low carves)

theorem FrameFails.advances (h : w.FrameFails w') : Advances w.arena.depth w w' := by
  cases h with
  | early fails => exact fails.advances _
  | late enter enters fails cut =>
    refine (enter.advances_of_enters _ enters).trans ((fails.advances _).trans (cut.advances ?_))
    rintro depth h
    cases h
    exact Nat.le_refl _

theorem Resized.advances {last p : Nat} (low : Nat) (h : w.Resized last p w') :
    Advances low w w' := by
  cases h with
  | same => exact .done _
  | extend n edit | retract n edit => exact edit.advances nofun
  | replace block edit _ => exact edit.advances nofun
  | move e span edit carves _ => exact edit.advances_of_carves low carves

theorem Outcome.advances {α ε : Type} {ok : α → World (Traced σ) → Prop}
    {fail : World (Traced σ) → Prop} {r : Except ε α × World (Traced σ)} {low : Nat}
    (h : Outcome ok fail r) (hOk : ∀ answer w', ok answer w' → Advances low w w')
    (hFail : ∀ w', fail w' → Advances low w w') : Advances low w r.2 := by
  rcases r with ⟨_ | answer, w'⟩
  · exact hFail w' h
  · exact hOk answer w' h

theorem carve_advances (hs : w.source = src.traced) (low size : Nat) (claim : Claim) :
    Advances low w (w.carve size claim).2 :=
  (carve_outcome hs size claim).advances
    (fun _ _ ⟨_, h⟩ => h.edits.advances_of_carves low h.carves) fun _ h => h.advances low

theorem cutTo_advances (hs : w.source = src.traced) {low depth : Nat} (hLow : low ≤ depth)
    (h : depth ≤ w.arena.depth) : Advances low w (w.cutTo depth) :=
  (edits_cutTo hs h).advances (by rintro depth ⟨⟩; exact hLow)

theorem depth_of_isLive {h : Handle} (hLive : w.arena.isLive h = true) :
    h.depth ≤ w.arena.depth := by
  simp only [isLive, Bool.and_eq_true, Option.any_eq_true] at hLive
  obtain ⟨-, m, hMark, -⟩ := hLive
  have := (List.getElem?_eq_some_iff.mp hMark).1
  unfold Arena.depth
  omega

/-- The depth down to which a call may cut the mark stack: the mark at this depth stays. -/
def lowest (w : World σ) : Op → Nat
  | .popMark h => if w.arena.isLive h ∧ h.isBottom = false then h.depth - 1 else w.arena.depth
  | .popFrame => w.arena.depth - 1
  | _ => w.arena.depth

/-- Every call advances by edits. -/
theorem step_advances (hs : w.source = src.traced) (op : Op) :
    Advances (w.lowest op) w (w.step op).2 := by
  have hFrame (size : Nat) (claim : Claim) :
      Advances w.arena.depth w (w.enterFrame size claim).2 :=
    (enterFrame_outcome hs size claim).advances (fun _ _ h => h.1.advances _) fun _ h => h.advances
  have hResize {r : Except Error Nat × World (Traced σ)} {last : Nat}
      (h : Outcome (w.Resized last) w.Fails r) : Advances w.arena.depth w r.2 :=
    h.advances (fun _ _ h => h.advances _) fun _ h => h.advances _
  cases op with
  | alloc size | allocMin size =>
    simp only [step, alloc, allocMin, replied_snd, policed_snd, addressOf_snd]
    exact carve_advances hs _ size _
  | pushMark =>
    simp only [step, pushMark, replied_snd, policed_snd]
    exact (enterMark_outcome hs).advances
      (fun _ _ ⟨_, _, h, hEnters⟩ => h.advances_of_enters _ hEnters) fun _ h => h.advances _
  | pushFrame size | pushFrameMin size =>
    simp only [step, pushFrame, pushFrameMin, replied_snd, policed_snd, addressOf_snd]
    exact hFrame size _
  | popMark h =>
    simp only [step, replied_snd, reported_snd, popMark]
    by_cases hLive : w.arena.isLive h = true
    · have hDepth := depth_of_isLive hLive
      rcases hBottom : h.isBottom with _ | _
      · simpa [lowest, hLive, hBottom] using cutTo_advances hs (Nat.le_refl _) (by omega)
      · simpa [hLive] using Advances.done w
    · simpa [hLive] using Advances.done w
  | popFrame =>
    simp only [step, popFrame]
    split
    · exact .done _
    · exact cutTo_advances hs (Nat.le_refl _) (Nat.sub_le _ _)
  | expandLast increment inPlace =>
    simp only [step, replied_snd, reported_snd]
    rcases hLast : w.arena.top.last with _ | last
    · rw [expandLast_of_none hLast, addressOf_snd]
      exact carve_advances hs _ increment .exact
    · exact hResize (expandLast_outcome hs hLast increment inPlace)
  | shrinkLast decrement =>
    simp only [step, replied_snd, reported_snd]
    rcases hLast : w.arena.top.last with _ | last
    · simp only [shrinkLast, hLast]
      exact .done w
    · exact hResize (shrinkLast_outcome hLast decrement)
  | resizeLast size inPlace =>
    simp only [step, replied_snd, reported_snd]
    rcases hLast : w.arena.top.last with _ | last
    · simp only [resizeLast, hLast]
      exact .done w
    · exact hResize (resizeLast_outcome hs hLast size inPlace)

end World

end ArenaRegistry.Arena
