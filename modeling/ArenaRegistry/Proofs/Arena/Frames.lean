import ArenaRegistry.Proofs.Arena.Roster
import ArenaRegistry.Proofs.Arena.Session

/-! A frame is a mark and an allocation under it. Where the two are carved at once, they are what a
push and an allocation after it would have carved; where they are not, they are pushed and allocated
one after the other, and the mark is popped if the allocation fails. -/

namespace ArenaRegistry.Arena

/-! ### Marks that stay -/

theorem Roster.cut_ids_ne_nil {r : Roster} (h : r.ids ≠ []) (depth : Nat) :
    (r.cut depth).ids ≠ [] := by
  simp [Roster.cut, h]

namespace World

variable {σ : Type} {w w' : World σ}

/-- No call pops the last mark, whatever the source has granted. -/
theorem step_marks_ne_nil (h : w.arena.marks ≠ []) (op : Op) : (w.step op).2.arena.marks ≠ [] := by
  rw [← roster_ids_ne_nil] at h ⊢
  by_cases hPop : ∃ handle, op = .popMark handle
  · obtain ⟨handle, rfl⟩ := hPop
    simp only [step, replied_snd, reported_snd]
    by_cases hMem : handle ∈ w.arena.roster.handles
    · rw [popMark_of_mem hMem]
      split
      · exact h
      · exact (roster_cutTo w.arena _).symm ▸ Roster.cut_ids_ne_nil h _
    · rw [popMark_of_not_mem hMem]
      exact h
  have hPush : w.arena.roster.push.ids ≠ [] := by simp [Roster.push]
  have hAfter : (w.arena.roster.after op).ids ≠ [] := by
    cases op with
    | pushMark | pushFrame _ | pushFrameMin _ => exact hPush
    | popFrame => exact Roster.cut_ids_ne_nil h _
    | _ => exact h
  have hStep := step_roster (roster_ids_ne_nil.mp h) fun handle hOp => hPop ⟨handle, hOp⟩
  rcases hr : w.step op with ⟨_ | reply, w'⟩ <;> rw [hr] at hStep
  · rcases hStep with hSame | hSkip
    · rwa [hSame]
    · rw [hSkip]
      exact h
  · show w'.arena.roster.ids ≠ []
    rwa [show w'.arena.roster = w.arena.roster.after op from hStep]

end World

theorem Session.run_marks_ne_nil {σ : Type} {s : Session σ} (h : s.world.arena.marks ≠ [])
    (actions : List Action) : (s.run actions).world.arena.marks ≠ [] := by
  induction actions generalizing s with
  | nil => exact h
  | cons action actions ih =>
    refine ih ?_
    cases action with
    | call op =>
      have hStep := World.step_marks_ne_nil h op
      rcases hr : s.world.step op with ⟨_ | reply, w'⟩ <;> rw [hr] at hStep <;>
        simpa only [step, call, hr] using hStep
    | write level index place bytes =>
      rcases s.write_cases level index place bytes with hWrite | ⟨r, -, -, hWrite⟩
      · rw [step, hWrite]
        exact h
      · rw [step, hWrite]
        exact h

/-- An arena always has a mark. -/
theorem Session.begin_run_marks_ne_nil {σ : Type} {src : BlockSource σ} {settings : Settings}
    {id : Nat} {host : Host (Traced σ)} {w : World (Traced σ)}
    (hStart : (start src.traced settings id host).1 = .ok w) (actions : List Action) :
    ((Session.begin w).run actions).world.arena.marks ≠ [] := by
  obtain ⟨-, b, hArena, -⟩ := World.exists_start hStart
  refine run_marks_ne_nil ?_ actions
  rw [Session.begin, hArena]
  exact List.cons_ne_nil _ _

namespace World

section Frame

variable {σ : Type} {α : Type}

/-! ### Two calls for one -/

/-- Two worlds that are alike but for the events that were noted. The store of a source that writes
its traffic down has the traffic in it. -/
structure Matches (w w' : World σ) : Prop where
  arena : w'.arena = w.arena
  source : w'.source = w.source
  store : w'.host.store = w.host.store
  memory : w'.host.memory = w.host.memory

/-- Two results with one answer, whose worlds match. -/
structure SameResult {ε : Type} (r r' : Except ε α × World σ) : Prop where
  answer : r'.1 = r.1
  world : r.2.Matches r'.2

/-- A mark is pushed, and then a call allocates under it. If only the allocation fails, the mark is
popped by the handle that the push has answered with. -/
def pushThen (w : World σ) (allocate : World σ → Except Failure α × World σ) :
    Except Failure α × World σ :=
  match w.pushMark with
  | (.error failure, w₁) => (.error failure, w₁)
  | (.ok handle, w₁) =>
    match allocate w₁ with
    | (.ok answer, w₂) => (.ok answer, w₂)
    | (.error failure, w₂) => (.error failure, (w₂.popMark handle).2)

/-- `pushThen`, with no heed of the wish to panic. -/
def enterThen (w : World σ) (size : Nat) (claim : Claim) : Except Error Span × World σ :=
  match w.enterMark with
  | (.error e, w₁) => (.error e, w₁)
  | (.ok handle, w₁) =>
    match w₁.carve size claim with
    | (.ok span, w₂) => (.ok span, w₂)
    | (.error e, w₂) => (.error e, (w₂.popMark handle).2)

variable {w w₁ w₂ : World σ} {size n : Nat} {claim : Claim}

theorem Matches.refl (w : World σ) : w.Matches w := ⟨rfl, rfl, rfl, rfl⟩

theorem SameResult.refl {ε : Type} (r : Except ε α × World σ) : SameResult r r := ⟨rfl, .refl _⟩

theorem SameResult.policed {r r' : Except Error α × World σ} (h : SameResult r r') :
    SameResult (policed r) (policed r') := by
  obtain ⟨answer, w⟩ := r
  obtain ⟨answer', w'⟩ := r'
  obtain ⟨rfl, hWorld⟩ : answer' = answer ∧ w.Matches w' := ⟨h.answer, h.world⟩
  cases answer' with
  | error e =>
    refine ⟨?_, hWorld⟩
    show Except.error (w'.failure e) = Except.error (w.failure e)
    rw [World.failure, World.failure, hWorld.arena]
  | ok answer => exact ⟨rfl, hWorld⟩

theorem SameResult.addressOf {r r' : Except Error Span × World σ} (h : SameResult r r') :
    SameResult (addressOf r) (addressOf r') := by
  obtain ⟨answer, w⟩ := r
  obtain ⟨answer', w'⟩ := r'
  obtain ⟨rfl, hWorld⟩ : answer' = answer ∧ w.Matches w' := ⟨h.answer, h.world⟩
  cases answer' <;> exact ⟨rfl, hWorld⟩

/-- Popping a mark does not change how the arena fails. -/
theorem failure_popMark (w : World σ) (handle : Handle) (e : Error) :
    (w.popMark handle).2.failure e = w.failure e := by
  unfold popMark
  split
  · split <;> rfl
  · rfl

theorem pushThen_alloc (w : World σ) (size : Nat) :
    w.pushThen (·.alloc size) = policed (addressOf (w.enterThen size .exact)) := by
  unfold pushThen enterThen pushMark alloc
  rcases w.enterMark with ⟨_ | handle, w₁⟩
  · rfl
  · simp only [policed]
    rcases w₁.carve size .exact with ⟨_ | span, w₂⟩
    · simp only [addressOf, failure_popMark]
    · rfl

theorem pushThen_allocMin (w : World σ) (size : Nat) :
    w.pushThen (·.allocMin size) = policed (w.enterThen size .rest) := by
  unfold pushThen enterThen pushMark allocMin
  rcases w.enterMark with ⟨_ | handle, w₁⟩
  · rfl
  · simp only [policed]
    rcases w₁.carve size .rest with ⟨_ | span, w₂⟩
    · simp only [failure_popMark]
    · rfl

/-! ### Carving both at once -/

theorem remaining_pushMark (a : Arena) (free : Nat) (last : Option Nat) :
    (a.pushMark a.top.chunkCount free last).remaining = a.chunk.size - free := by
  rw [remaining, chunk, top_of_marks (marks_pushMark _ _ _)]
  rfl

theorem nextFree_pushMark (a : Arena) (free : Nat) (last : Option Nat) :
    (a.pushMark a.top.chunkCount free last).nextFree = a.chunk.start + free := by
  rw [nextFree, chunk, top_of_marks (marks_pushMark _ _ _)]
  rfl

/-- What is carved first under a new mark might as well have come with it. -/
theorem bump_pushMark (a : Arena) (chunkCount free n : Nat) :
    (a.pushMark chunkCount free none).bump n =
      a.pushMark chunkCount (free + n) (some ((a.chunkAt chunkCount).start + free)) := by
  have hTop := top_of_marks (a.marks_pushMark chunkCount free none)
  have hNext : (a.pushMark chunkCount free none).nextFree =
      (a.chunkAt chunkCount).start + free := by
    rw [nextFree, chunk, hTop]
    rfl
  have hMarks := marks_mapTop (a.marks_pushMark chunkCount free none)
    fun m => { m with free := m.free + n, last := some ((a.chunkAt chunkCount).start + free) }
  rw [bump, hNext]
  calc _ = { a.pushMark chunkCount free none with
        marks := ((a.pushMark chunkCount free none).mapTop fun m =>
          { m with free := m.free + n, last := some ((a.chunkAt chunkCount).start + free) }).marks } :=
        rfl
    _ = _ := by rw [hMarks]; rfl

/-- A request that fits together with a mark is carved from the same bytes after the mark. -/
theorem fuseFrame_matches (hValid : ¬InvalidRequest size)
    (hFits : w.arena.fitsFrame (Size.roundUp size) = true) :
    SameResult (w.enterThen size claim)
      (.ok (w.fuseFrame (Size.roundUp size) claim).1, (w.fuseFrame (Size.roundUp size) claim).2) := by
  have hBoth : Size.roundUp size + footprint ≤ w.arena.chunk.size - w.arena.top.free :=
    of_decide_eq_true hFits
  have hRoom : footprint ≤ w.arena.remaining := Nat.le_trans (Nat.le_add_left _ _) hBoth
  generalize hEntered : (w.addMark w.arena.top.chunkCount (w.arena.top.free + footprint)).2 = w₁
  have hEnter : w.enterMark = (.ok w₁.arena.topHandle, w₁) := by
    rw [enterMark, if_pos hRoom, ← hEntered]
    rfl
  have hArena : w₁.arena =
      w.arena.pushMark w.arena.top.chunkCount (w.arena.top.free + footprint) none := by
    rw [← hEntered]
    rfl
  have hLeft : w₁.arena.remaining = w.arena.chunk.size - (w.arena.top.free + footprint) := by
    rw [hArena, remaining_pushMark]
  have hNext : w₁.arena.nextFree = w.arena.chunk.start + (w.arena.top.free + footprint) := by
    rw [hArena, nextFree_pushMark]
  have hRoute : w₁.arena.route (Size.roundUp size) = .bump := route_bump.mpr (by omega)
  simp only [enterThen, hEnter, carve, if_neg hValid, hRoute]
  refine ⟨?_, ?_, ?_, ?_, ?_⟩
  · rw [hNext, hLeft]
    rfl
  · rw [hLeft]
    show _ = w₁.arena.bump _
    rw [hArena, bump_pushMark]
    rfl
  all_goals
    rw [← hEntered]
    rfl

/-! ### One after the other -/

/-- After a failed allocation under a new mark, the mark is popped by its handle. -/
theorem popMark_entered {handle : Handle} {e : Error} (hMarks : w.arena.marks ≠ [])
    (hEnter : w.enterMark = (.ok handle, w₁)) (hCarve : w₁.carve size claim = (.error e, w₂)) :
    w₂.popMark handle = (.ok (), w₂.cutTo (handle.depth - 1)) := by
  have hEntered := w.enterMark_roster
  rw [hEnter] at hEntered
  obtain ⟨hPush, hHandle⟩ := hEntered
  have hName : handle = w.arena.roster.newest := hHandle.trans (topHandle_of_push hPush)
  have hRoster : w₂.arena.roster = w.arena.roster.push := by
    have hSame := w₁.carve_roster size claim
    rw [hCarve] at hSame
    exact hSame.trans hPush
  have hMem : handle ∈ w₂.arena.roster.handles := by
    rw [hRoster, Roster.handles_push, hName]
    exact List.mem_concat_self
  have hNotBottom : handle.isBottom = false := by
    have hPos := List.length_pos_iff.mpr (roster_ids_ne_nil.mpr hMarks)
    rw [hName, Handle.isBottom, beq_eq_false_iff_ne]
    exact Nat.ne_of_gt hPos
  rw [popMark_of_mem hMem, hNotBottom]
  rfl

theorem enterFrame_matches (hMarks : w.arena.marks ≠ []) (hValid : ¬InvalidRequest size) :
    SameResult (w.enterThen size claim) (w.enterFrame size claim) := by
  by_cases hFits : w.arena.fitsFrame (Size.roundUp size) = true
  · rw [enterFrame, if_neg hValid, if_pos hFits]
    exact fuseFrame_matches hValid hFits
  have hEq : w.enterFrame size claim = w.enterThen size claim := by
    rw [enterFrame, if_neg hValid, if_neg hFits, enterThen]
    rcases hEnter : w.enterMark with ⟨_ | handle, w₁⟩
    · rfl
    · simp only
      rcases hCarve : w₁.carve size claim with ⟨e | span, w₂⟩
      · simp only [popMark_entered hMarks hEnter hCarve]
      · rfl
  rw [hEq]
  exact .refl _

end Frame

end World

/-- Whatever was called and written before and however the source grants and refuses: a frame of a
size that may be requested is a push and then an allocation of that size. It succeeds just where both
do, with the same answer, and leaves the same arena, memory and traffic; where only the allocation
fails, it fails alike and leaves what popping the new mark leaves. A frame of any other size is
refused before anything is pushed. -/
theorem frame_is_push_then_alloc {σ : Type} (src : BlockSource σ) (settings : Settings) (id : Nat)
    (host : Host (Traced σ)) (w : World (Traced σ)) (actions : List Action) (size : Nat)
    (hStart : (start src.traced settings id host).1 = .ok w) :
    let now := ((Session.begin w).run actions).world
    (¬InvalidRequest size →
      World.SameResult (now.pushThen (·.alloc size)) (now.pushFrame size) ∧
        World.SameResult (now.pushThen (·.allocMin size)) (now.pushFrameMin size)) ∧
      (InvalidRequest size →
        now.pushFrame size = (.error (now.failure (.invalidSize size)), now) ∧
          now.pushFrameMin size = (.error (now.failure (.invalidSize size)), now)) := by
  intro now
  have hMarks : now.arena.marks ≠ [] := by
    obtain ⟨-, b, hArena, -⟩ := World.exists_start hStart
    refine Session.run_marks_ne_nil ?_ actions
    rw [Session.begin, hArena]
    exact List.cons_ne_nil _ _
  refine ⟨fun hValid => ⟨?_, ?_⟩, fun hBad => ⟨?_, ?_⟩⟩
  · rw [World.pushThen_alloc]
    exact (World.enterFrame_matches hMarks hValid).addressOf.policed
  · rw [World.pushThen_allocMin]
    exact (World.enterFrame_matches hMarks hValid).policed
  · rw [World.pushFrame, World.enterFrame, if_pos hBad]
    rfl
  · rw [World.pushFrameMin, World.enterFrame, if_pos hBad]
    rfl

/-- The current chunk has room for the mark but not for what comes with it. -/
theorem frame_is_push_then_alloc_limited :
    ∃ w : World (Traced Heap),
      (start Heap.limited.traced ⟨0, false⟩ 1 Host.blank).1 = .ok w ∧ ¬InvalidRequest 200 ∧
        World.SameResult
          (((Session.begin w).run [.call (.alloc 7800)]).world.pushThen (·.allocMin 200))
          (((Session.begin w).run [.call (.alloc 7800)]).world.pushFrameMin 200) :=
  ⟨_, rfl, by decide, ((frame_is_push_then_alloc Heap.limited ⟨0, false⟩ 1 Host.blank _
    [.call (.alloc 7800)] 200 rfl).1 (by decide)).2⟩

end ArenaRegistry.Arena
