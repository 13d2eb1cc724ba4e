import ArenaRegistry.Proofs.Arena.Claims
import Mathlib.Algebra.GroupWithZero.Nat

/-! The room that a new chunk brings. A chunk is opened only when less than an eighth of one is
left, and it is chosen so large that half a chunk is free behind the request it was opened for.
Calls that need no more than that in all are served from it without asking the source again. -/

namespace ArenaRegistry.Arena

/-- The calls that take from a chunk no more than they need. -/
def Op.isPlain : Op → Bool
  | .alloc size | .pushFrame size => size != 0
  | .pushMark => true
  | _ => false

/-- The bytes that such a call needs. -/
def Op.need : Op → Nat
  | .alloc size => Size.roundUp size
  | .pushMark => footprint
  | .pushFrame size => Size.roundUp size + footprint
  | _ => 0

/-- No chunk is opened, and the current one stays current. -/
structure KeepsChunk (a a' : Arena) : Prop where
  chunks : a'.chunks = a.chunks
  chunk : a'.chunk = a.chunk

namespace World

variable {σ : Type}

/-- Every call of a run succeeds, and none of them asks the source for anything. -/
def RunsFreely (w : World σ) (ops : List Op) : Prop :=
  ∀ past op later, ops = past ++ op :: later →
    ((w.run past).step op).1.isOk = true ∧
      ((w.run past).step op).2.host.store = (w.run past).host.store

/-- A request for `size` bytes has opened a chunk for itself and for others. -/
structure OpensAmply (w : World (Traced σ)) (size : Nat) (block : Span) (w' : World (Traced σ)) :
    Prop where
  cramped : w.arena.remaining < w.arena.chunkSize / 8
  traffic : w'.traffic = w.traffic ++ [.granted block]
  chunks : w'.arena.chunks = w.arena.chunks ++ [block]
  current : w'.arena.chunk = block
  whole : Size.IsWhole block.size
  enough : Size.roundUp size ≤ block.size
  half : Size.roundUp size + w.arena.chunkSize ≤ Size.largest →
    w.arena.chunkSize / 2 ≤ w'.arena.remaining
  headroom : Size.roundUp size + w.arena.chunkSize ≤ Size.largest → ∀ ops : List Op,
    (∀ op ∈ ops, op.isPlain = true) → (ops.map Op.need).sum ≤ w.arena.chunkSize / 2 →
      w'.RunsFreely ops

end World

/-! ### The size of chunks -/

theorem chunkSize_edit (a : Arena) (e : Edit) : (a.edit e).chunkSize = a.chunkSize := by
  cases e <;> rfl

theorem World.Advances.chunkSize {σ : Type} {low : Nat} {w w' : World (Traced σ)}
    (h : Advances low w w') : w'.arena.chunkSize = w.arena.chunkSize := by
  induction h with
  | done => rfl
  | step first _ _ ih => rw [ih, first.arena, chunkSize_edit]

section Sessions

variable {σ : Type} {src : BlockSource σ} {s : Session (Traced σ)}

theorem Session.step_chunkSize (hs : s.world.source = src.traced) (action : Action) :
    (s.step action).world.arena.chunkSize = s.world.arena.chunkSize := by
  cases action with
  | call op =>
    rw [step, call_world]
    exact (World.step_advances hs op).chunkSize
  | write level index place bytes =>
    rcases s.write_cases level index place bytes with hWrite | ⟨r, -, -, hWrite⟩
    · rw [step, hWrite]
    · rw [step, hWrite]
      rfl

theorem Session.run_chunkSize (hs : s.world.source = src.traced) (actions : List Action) :
    (s.run actions).world.arena.chunkSize = s.world.arena.chunkSize := by
  induction actions generalizing s with
  | nil => rfl
  | cons action actions ih => exact (ih (step_source hs action)).trans (step_chunkSize hs action)

theorem Session.begin_run_chunkSize {settings : Settings} {id : Nat} {host : Host (Traced σ)}
    {w : World (Traced σ)} (hStart : (start src.traced settings id host).1 = .ok w)
    (actions : List Action) :
    ((Session.begin w).run actions).world.arena.chunkSize = settings.effectiveChunkSize := by
  obtain ⟨hSource, b, hArena, -⟩ := World.exists_start hStart
  rw [run_chunkSize (s := Session.begin w) hSource, Session.begin, hArena]
  rfl

end Sessions

/-! ### What is left -/

section Arenas

variable {a : Arena}

theorem remaining_bump (h : a.marks ≠ []) (n : Nat) :
    (a.bump n).remaining = a.remaining - n := by
  have hFree : (a.bump n).top.free = a.top.free + n := by rw [bump, top_mapTop_of_ne_nil h]
  rw [remaining, chunk_bump h, hFree, remaining, Nat.sub_sub]

theorem top_openChunk (h : a.marks ≠ []) (block : Span) (n : Nat) :
    (a.openChunk block n).top =
      { a.top with chunkCount := a.chunks.length + 1, free := n, last := some block.start } :=
  top_mapTop_of_ne_nil (a := { a with chunks := a.chunks ++ [block] }) h _

theorem chunk_openChunk (h : a.marks ≠ []) (block : Span) (n : Nat) :
    (a.openChunk block n).chunk = block := by
  rw [chunk, top_openChunk h]
  show (a.chunks ++ [block])[a.chunks.length + 1 - 1]?.getD default = block
  simp

theorem remaining_openChunk (h : a.marks ≠ []) (block : Span) (n : Nat) :
    (a.openChunk block n).remaining = block.size - n := by
  rw [remaining, chunk_openChunk h, top_openChunk h]

theorem chunk_addBig (h : a.marks ≠ []) (block : Span) : (a.addBig block).chunk = a.chunk := by
  rw [chunk, addBig, top_mapTop_of_ne_nil (a := { a with bigBlocks := a.bigBlocks ++ [block] }) h]
  rfl

/-- A chunk that is opened for a request has half a chunk of room behind it, as long as the two
together may be asked for. -/
theorem half_le_chunkSizeFor {n : Nat} (h : n + a.chunkSize ≤ Size.largest) :
    a.chunkSize / 2 ≤ a.chunkSizeFor n - n := by
  unfold chunkSizeFor
  split
  · omega
  · omega

end Arenas

namespace World

/-! ### Calls that find room -/

section Room

variable {σ : Type} {w : World σ}

theorem valid_of_need {size need : Nat} (hSize : (size != 0) = true)
    (hLe : Size.roundUp size ≤ need) (hNeed : need ≤ Size.largest) : ¬InvalidRequest size := by
  have := Size.le_roundUp size
  rintro (hZero | hLarge)
  · exact bne_iff_ne.mp hSize hZero
  · omega

/-- A plain call for which there is room succeeds, and takes what it needs from the chunk alone. -/
theorem step_of_room {op : Op} (hMarks : w.arena.marks ≠ []) (hPlain : op.isPlain = true)
    (hRoom : op.need ≤ w.arena.remaining) (hNeed : op.need ≤ Size.largest) :
    (w.step op).1.isOk = true ∧ (w.step op).2.host.store = w.host.store ∧
      (w.step op).2.arena.remaining = w.arena.remaining - op.need := by
  cases op with
  | alloc size =>
    have hFits : Size.roundUp size ≤ w.arena.remaining := hRoom
    have hValid := valid_of_need hPlain (Nat.le_refl _) hNeed
    have hCarve : w.carve size .exact = (.ok ⟨w.arena.nextFree, Size.roundUp size⟩,
        w.withArena (w.arena.bump (Size.roundUp size))) := by
      simp only [carve, if_neg hValid, route_bump.mpr hFits, Claim.taken]
    rw [step, alloc, hCarve]
    exact ⟨rfl, rfl, remaining_bump hMarks _⟩
  | pushMark =>
    have hFits : footprint ≤ w.arena.remaining := hRoom
    rw [step, pushMark, enterMark, if_pos hFits]
    refine ⟨rfl, rfl, (remaining_pushMark _ _ _).trans ?_⟩
    rw [remaining, Nat.sub_sub]
    rfl
  | pushFrame size =>
    have hFits : Size.roundUp size + footprint ≤ w.arena.remaining := hRoom
    have hValid := valid_of_need hPlain (Nat.le_add_right _ footprint) hNeed
    have hFuse : w.arena.fitsFrame (Size.roundUp size) = true := decide_eq_true hFits
    rw [step, pushFrame, enterFrame, if_neg hValid, if_pos hFuse]
    refine ⟨rfl, rfl, (remaining_pushMark _ _ _).trans ?_⟩
    simp only [remaining, Op.need, Claim.taken]
    omega
  | _ => cases hPlain

/-- Calls that need no more than there is left run freely. The induction is on the calls before the
one in question, each of which leaves room for the ones behind it. -/
theorem runsFreely_of_room {ops : List Op} (hMarks : w.arena.marks ≠ [])
    (hPlain : ∀ op ∈ ops, op.isPlain = true) (hRoom : (ops.map Op.need).sum ≤ w.arena.remaining)
    (hNeed : (ops.map Op.need).sum ≤ Size.largest) : w.RunsFreely ops := by
  rintro past op later rfl
  induction past generalizing w with
  | nil =>
    rw [List.nil_append, List.map_cons, List.sum_cons] at hRoom hNeed
    have hStep := step_of_room hMarks (hPlain op (List.mem_cons_self ..)) (by omega) (by omega)
    exact ⟨hStep.1, hStep.2.1⟩
  | cons first past ih =>
    rw [List.cons_append, List.map_cons, List.sum_cons] at hRoom hNeed
    obtain ⟨-, -, hLeft⟩ :=
      step_of_room hMarks (hPlain first (List.mem_cons_self ..)) (by omega) (by omega)
    have hRest : ((past ++ op :: later).map Op.need).sum ≤ (w.step first).2.arena.remaining := by
      omega
    exact ih (step_marks_ne_nil hMarks first)
      (fun op hMem => hPlain op (List.mem_cons_of_mem first hMem)) hRest (by omega)

end Room

/-! ### Requests that open a chunk -/

section Opening

variable {σ : Type} {src : BlockSource σ} {w w' : World (Traced σ)} {size : Nat} {claim : Claim}
  {span : Span}

/-- A request opens a chunk only on its way to a new chunk. -/
theorem carve_opens (hs : w.source = src.traced) (hCarve : w.carve size claim = (.ok span, w'))
    (hOpens : w'.arena.chunks ≠ w.arena.chunks) :
    ∃ block, span.start = block.start ∧ w.Edits (.openChunk block (Size.roundUp size)) w' := by
  by_cases hBad : InvalidRequest size
  · simp [carve, if_pos hBad] at hCarve
  have hWhole := Size.isWhole_roundUp size
  have hPos := roundUp_pos hBad
  rcases hRoute : w.arena.route (Size.roundUp size) with _ | bytes | _ <;>
    simp only [carve, if_neg hBad, hRoute] at hCarve
  · cases hCarve
    exact absurd rfl hOpens
  · have h := allocInChunk_outcome hs hWhole hPos hRoute
    rw [hCarve] at h
    obtain ⟨-, block, hEdits, rfl⟩ := h
    exact ⟨block, rfl, hEdits⟩
  · have h := allocBig_outcome hs hWhole hPos hRoute
    rw [hCarve] at h
    obtain ⟨-, hEdits⟩ := h
    rw [hEdits.arena] at hOpens
    exact absurd rfl hOpens

theorem opensAmply (hs : w.source = src.traced) (hMarks : w.arena.marks ≠ [])
    (hWhole : Size.IsWhole w.arena.chunkSize) (hCarve : w.carve size claim = (.ok span, w'))
    (hOpens : w'.arena.chunks ≠ w.arena.chunks) :
    ∃ block, span.start = block.start ∧ w.OpensAmply size block w' := by
  obtain ⟨block, hStart, hEdits⟩ := carve_opens hs hCarve hOpens
  obtain ⟨-, -, hRoute⟩ := hEdits.fits
  have hArena : w'.arena = w.arena.openChunk block (Size.roundUp size) := hEdits.arena
  have hSize : block.size = w.arena.chunkSizeFor (Size.roundUp size) :=
    (bytes_of_route_chunk hRoute).symm
  have hHalf (hFits : Size.roundUp size + w.arena.chunkSize ≤ Size.largest) :
      w.arena.chunkSize / 2 ≤ w'.arena.remaining := by
    rw [hArena, remaining_openChunk hMarks, hSize]
    exact half_le_chunkSizeFor hFits
  have hMarks' : w'.arena.marks ≠ [] := by
    obtain ⟨below, hSplit⟩ := exists_marks_eq hMarks
    have hStays : (Edit.openChunk block (Size.roundUp size)).Stays := trivial
    rw [hEdits.arena, marks_edit_of_stays hSplit hStays]
    simp
  exact ⟨block, hStart, {
    cramped := cramped_of_route_chunk hRoute
    traffic := hEdits.traffic
    chunks := congrArg Arena.chunks hArena
    current := hArena ▸ chunk_openChunk hMarks block _
    whole := hSize ▸ chunkSizeFor_isWhole hWhole (Size.isWhole_roundUp size)
    enough := le_of_route_chunk hRoute
    half := hHalf
    headroom := fun hFits ops hPlain hNeed =>
      runsFreely_of_room hMarks' hPlain (Nat.le_trans hNeed (hHalf hFits)) (by omega) }⟩

/-- No request gives up a chunk with an eighth of one left in it, whether it succeeds or fails. -/
theorem carve_keeps_chunk (hMarks : w.arena.marks ≠ [])
    (hLeft : w.arena.chunkSize / 8 ≤ w.arena.remaining) (size : Nat) (claim : Claim) :
    w.arena.KeepsChunk (w.carve size claim).2.arena := by
  by_cases hBad : InvalidRequest size
  · simp only [carve, if_pos hBad]
    exact ⟨rfl, rfl⟩
  rcases hRoute : w.arena.route (Size.roundUp size) with _ | bytes | _ <;>
    simp only [carve, if_neg hBad, hRoute]
  · exact ⟨rfl, chunk_bump hMarks _⟩
  · exact absurd (cramped_of_route_chunk hRoute) (Nat.not_lt.mpr hLeft)
  · have hArena := w.acquire_arena (Size.roundUp size)
    unfold allocBig
    rcases hr : w.acquire (Size.roundUp size) with ⟨_ | block, w₁⟩ <;> rw [hr] at hArena
    · exact ⟨congrArg Arena.chunks hArena, congrArg Arena.chunk hArena⟩
    · have hArena : w₁.arena = w.arena := hArena
      simp only [note_arena, withArena_arena, hArena]
      exact ⟨rfl, chunk_addBig hMarks block⟩

end Opening

end World

/-- However a source grants and refuses and whatever was called and written before: a chunk is opened
for a request only when less than an eighth of a chunk is left. It is of whole grains and holds the
request, and if request and chunk together are not too large to be asked for, half a chunk is free
behind it: allocations, marks and frames that need no more than that in all succeed without asking
the source for anything. -/
theorem opened_chunk_has_headroom {σ : Type} (src : BlockSource σ) (settings : Settings) (id : Nat)
    (host : Host (Traced σ)) (w : World (Traced σ)) (actions : List Action) (size : Nat)
    (hStart : (start src.traced settings id host).1 = .ok w) :
    let now := ((Session.begin w).run actions).world
    now.arena.chunkSize = settings.effectiveChunkSize ∧
      (∀ address later, now.alloc size = (.ok address, later) →
        later.arena.chunks ≠ now.arena.chunks →
          ∃ block, address = block.start ∧ now.OpensAmply size block later) ∧
      (∀ span later, now.allocMin size = (.ok span, later) →
        later.arena.chunks ≠ now.arena.chunks →
          ∃ block, span.start = block.start ∧ now.OpensAmply size block later) ∧
      (now.arena.chunkSize / 8 ≤ now.arena.remaining →
        now.arena.KeepsChunk (now.alloc size).2.arena ∧
          now.arena.KeepsChunk (now.allocMin size).2.arena) := by
  intro now
  have hSource : now.source = src.traced := Session.run_source (World.exists_start hStart).1 actions
  have hMarks : now.arena.marks ≠ [] := Session.begin_run_marks_ne_nil hStart actions
  have hChunk : now.arena.chunkSize = settings.effectiveChunkSize :=
    Session.begin_run_chunkSize hStart actions
  have hWhole : Size.IsWhole now.arena.chunkSize := hChunk ▸ Size.isWhole_roundUp _
  refine ⟨hChunk, ?_, ?_, fun hLeft => ⟨?_, ?_⟩⟩
  · intro address later hAlloc hOpens
    rcases hCarve : now.carve size .exact with ⟨_ | span, w'⟩ <;> rw [World.alloc, hCarve] at hAlloc
    · cases hAlloc
    · cases hAlloc
      exact World.opensAmply hSource hMarks hWhole hCarve hOpens
  · intro span later hAlloc hOpens
    rcases hCarve : now.carve size .rest with ⟨_ | found, w'⟩ <;>
      rw [World.allocMin, hCarve] at hAlloc
    · cases hAlloc
    · cases hAlloc
      exact World.opensAmply hSource hMarks hWhole hCarve hOpens
  · rw [World.alloc, World.policed_snd, World.addressOf_snd]
    exact World.carve_keeps_chunk hMarks hLeft size .exact
  · rw [World.allocMin, World.policed_snd]
    exact World.carve_keeps_chunk hMarks hLeft size .rest

/-- A chunk is opened for just half a chunk, and calls that need just the other half run freely. -/
theorem opened_chunk_has_headroom_limited :
    ∃ w : World (Traced Heap), (start Heap.limited.traced ⟨0, false⟩ 1 Host.blank).1 = .ok w ∧
      let now := ((Session.begin w).run [.call (.alloc 7000)]).world
      ∃ later, now.alloc 4000 = (.ok 0x10000001f50, later) ∧
        later.arena.chunks ≠ now.arena.chunks ∧ later.arena.remaining = 4000 ∧
        (∃ block, now.OpensAmply 4000 block later) ∧
        later.RunsFreely [.pushMark, .alloc 3000, .pushFrame 888] := by
  have hOpened := opened_chunk_has_headroom Heap.limited ⟨0, false⟩ 1 Host.blank _
    [.call (.alloc 7000)] 4000 rfl
  obtain ⟨block, -, hAmply⟩ := hOpened.2.1 0x10000001f50 _ rfl (by decide +kernel)
  exact ⟨_, rfl, _, rfl, by decide +kernel, by decide +kernel, ⟨block, hAmply⟩,
    hAmply.headroom (by decide +kernel) _ (by decide) (by decide +kernel)⟩

end ArenaRegistry.Arena
