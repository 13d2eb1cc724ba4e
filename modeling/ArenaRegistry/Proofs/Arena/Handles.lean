import ArenaRegistry.Arena.Heap
import ArenaRegistry.Proofs.Arena.Watch

/-! The handles of marks over whole runs. Several arenas are at work, and every handle that one of
them issues is kept, long after its mark is gone and other marks have stood at its depth. An arena
accepts exactly those of its handles whose marks are on its stack. -/

namespace ArenaRegistry.Arena

namespace Watch

variable {σ : Type} {s : Watch σ} {names : List Handle} {i : Nat} {w : World σ}

/-! ### Each act -/

theorem begin_named (host : Host σ) : (begin host).Named [] :=
  ⟨rfl, List.nodup_nil, rfl, rfl, nofun, nofun, nofun⟩

theorem start_roster {src : BlockSource σ} {settings : Settings} {id : Nat} {host host' : Host σ}
    (h : start src settings id host = (.ok w, host')) : w.arena.roster = ⟨id, [0], 1⟩ := by
  unfold start at h
  split at h
  next => cases h
  next =>
    simp only at h
    split at h
    · cases h
    · cases h
      rfl

theorem create_named (h : s.Named names) (src : BlockSource σ) (settings : Settings) :
    ∃ more, (s.create src settings).Named (names ++ more) := by
  unfold create Pool.create
  rcases hStart : Arena.start src settings s.pool.nextId s.pool.host with ⟨_ | w, host⟩
  · refine ⟨[], ?_⟩
    rw [List.append_nil]
    exact ⟨h.made, h.distinct, h.live, h.nextId, h.owners, h.seated, h.issued⟩
  · have hRoster := start_roster hStart
    rw [h.nextId] at hRoster
    exact ⟨_, h.start host hRoster⟩

theorem close_named (h : s.Named names) (i : Nat) : (s.step (.close i)).Named names :=
  h.shut [] (fun _ _ => Pool.seats_close) (s.pool.length_seats_close i) (s.pool.nextId_close i)

theorem call_named (h : s.Named names) (i : Nat) {op : Op} (hOp : ∀ handle, op ≠ .popMark handle) :
    ∃ more, (s.call i op).Named (names ++ more) := by
  cases hWorld : s.pool.world? i with
  | none =>
    refine ⟨[], ?_⟩
    rw [List.append_nil, call, Pool.step_of_none hWorld]
    exact h
  | some w =>
    obtain ⟨-, hOwner, hSeated⟩ := h.seated_of_world? hWorld
    have hStep := World.step_roster (roster_ids_ne_nil.mp hSeated.nonempty) hOp
    have hHandle := w.step_pushMark_handle
    rw [call, Pool.step_of_world? hWorld]
    rcases hr : w.step op with ⟨_ | reply, w'⟩ <;> rw [hr] at hStep
    · refine ⟨[], ?_⟩
      rw [List.append_nil]
      rcases hStep with hSame | hSkip
      · exact h.turn_same hWorld (hSame ▸ hOwner) (hSame ▸ hSeated)
      · exact h.turn_same hWorld (hSkip ▸ hOwner) (hSkip ▸ hSeated.skip)
    · cases op with
      | pushMark =>
        obtain rfl : reply = .handle w'.arena.topHandle := by rwa [hr] at hHandle
        rw [topHandle_of_push hStep]
        exact ⟨_, h.turn_push _ hWorld hStep fun _ => List.mem_singleton.mp⟩
      | pushFrame size | pushFrameMin size =>
        have hPush := h.turn_push [] hWorld hStep nofun
        rw [turn, List.append_nil] at hPush
        exact ⟨_, hPush⟩
      | popMark handle => exact absurd rfl (hOp handle)
      | popFrame =>
        refine ⟨[], ?_⟩
        rw [List.append_nil]
        have hPop : w'.arena.roster = w.arena.roster.cut ((s.stack i).length - 2) :=
          hSeated.length_eq ▸ hStep
        have hCut := hSeated.cut ((s.stack i).length - 2)
        rw [← popLast_eq_take, ← hPop] at hCut
        exact h.turn_none hWorld (hStep ▸ hOwner) hCut
      | _ =>
        refine ⟨[], ?_⟩
        rw [List.append_nil]
        exact h.turn_same hWorld (hStep ▸ hOwner) (hStep ▸ hSeated)

/-! ### Pops by handle -/

variable {issue : Issue}

theorem Named.mem_handles_iff (h : s.Named names) (hIssue : issue ∈ s.issued)
    (hWorld : s.pool.world? i = some w) :
    issue.handle ∈ w.arena.roster.handles ↔ issue.mark ∈ s.stack i :=
  (h.seated_of_world? hWorld).2.2.mem_handles_iff h.distinct (h.issued issue hIssue).1

theorem Named.depth_eq (h : s.Named names) (hIssue : issue ∈ s.issued)
    (hWorld : s.pool.world? i = some w) (hLive : issue.mark ∈ s.stack i) :
    issue.handle.depth = (s.stack i).idxOf issue.mark :=
  (h.seated_of_world? hWorld).2.2.depth_eq hLive (h.issued issue hIssue).1

/-- Only the arena that has issued a handle has its mark. -/
theorem Named.seat_eq (h : s.Named names) (hIssue : issue ∈ s.issued)
    (hWorld : s.pool.world? i = some w) (hLive : issue.mark ∈ s.stack i) : issue.seat = i := by
  have hOwner := Roster.owner_of_mem ((h.mem_handles_iff hIssue hWorld).mpr hLive)
  rw [(h.issued issue hIssue).2, (h.seated_of_world? hWorld).2.1] at hOwner
  exact Nat.succ.inj hOwner

theorem Named.popMark_live (h : s.Named names) (hIssue : issue ∈ s.issued)
    (hWorld : s.pool.world? i = some w) (hLive : issue.mark ∈ s.stack i) :
    w.popMark issue.handle = (.ok (), if (s.stack i).idxOf issue.mark = 0 then w
      else w.cutTo ((s.stack i).idxOf issue.mark - 1)) := by
  rw [World.popMark_of_mem ((h.mem_handles_iff hIssue hWorld).mpr hLive),
    ← h.depth_eq hIssue hWorld hLive]
  simp [Handle.isBottom]

theorem Named.popMark_stale (h : s.Named names) (hIssue : issue ∈ s.issued)
    (hWorld : s.pool.world? i = some w) (hStale : issue.mark ∉ s.stack i) :
    w.popMark issue.handle = (.error (.invalidMark issue.handle.id), w) :=
  World.popMark_of_not_mem (mt (h.mem_handles_iff hIssue hWorld).mp hStale)

theorem pop_named (h : s.Named names) (i : Nat) (hIssue : issue ∈ s.issued) :
    (s.pop i issue).Named names := by
  cases hWorld : s.pool.world? i with
  | none =>
    rw [pop, Pool.step_of_none hWorld]
    exact h.shut _ (fun _ _ hSeat => ⟨Pool.ne_of_world?_eq_none hWorld hSeat, hSeat⟩) rfl rfl
  | some w =>
    obtain ⟨-, hOwner, hSeated⟩ := h.seated_of_world? hWorld
    have hStep : (w.step (.popMark issue.handle)).2 = (w.popMark issue.handle).2 := by
      simp [World.step]
    rw [pop, Pool.step_of_world? hWorld, hStep]
    by_cases hLive : issue.mark ∈ s.stack i
    · rw [h.popMark_live hIssue hWorld hLive, popTo]
      split
      next => exact h.turn_none hWorld hOwner hSeated
      next hAbove =>
        have hCut := hSeated.cut ((s.stack i).idxOf issue.mark - 1)
        rw [Nat.sub_add_cancel (Nat.pos_of_ne_zero hAbove), ← roster_cutTo] at hCut
        have hSame : (w.cutTo ((s.stack i).idxOf issue.mark - 1)).arena.roster.owner = i + 1 :=
          hOwner
        exact h.turn_none hWorld hSame hCut
    · rw [h.popMark_stale hIssue hWorld hLive, popTo_of_not_mem hLive]
      exact h.turn_none hWorld hOwner hSeated

/-! ### Any act -/

theorem top_named (h : s.Named names) (hWorld : s.pool.world? i = some w) :
    (s.issue w.arena.topHandle i ((s.stack i).getLastD 0)).Named names := by
  obtain ⟨-, hOwner, hSeated⟩ := h.seated_of_world? hWorld
  have hTop := handles_topHandle (roster_ids_ne_nil.mp hSeated.nonempty)
  obtain ⟨mark, hMark, hName⟩ := hSeated.mark_of_getElem? hTop
  rw [← hSeated.length_eq, ← List.getLast?_eq_getElem?] at hMark
  rw [List.getLastD_eq_getLast?, hMark]
  exact h.issue hName hOwner

theorem bottom_named (h : s.Named names) (hWorld : s.pool.world? i = some w) :
    (s.issue w.arena.bottomHandle i ((s.stack i).headD 0)).Named names := by
  obtain ⟨-, hOwner, hSeated⟩ := h.seated_of_world? hWorld
  have hBottom : w.arena.roster.handles[0]? = some w.arena.bottomHandle :=
    handles_handleAt (List.length_pos_iff.mpr (roster_ids_ne_nil.mp hSeated.nonempty))
  obtain ⟨mark, hMark, hName⟩ := hSeated.mark_of_getElem? hBottom
  rw [← List.head?_eq_getElem?] at hMark
  rw [List.headD_eq_head?_getD, hMark]
  exact h.issue hName hOwner

theorem step_named (h : s.Named names) (act : Act σ) :
    ∃ more, (s.step act).Named (names ++ more) := by
  have hSame {s' : Watch σ} (hNamed : s'.Named names) : ∃ more, s'.Named (names ++ more) :=
    ⟨[], (List.append_nil names).symm ▸ hNamed⟩
  cases act with
  | create src settings => exact create_named h src settings
  | close seat => exact hSame (close_named h seat)
  | call seat op =>
    cases op with
    | popMark handle => exact hSame h
    | _ => exact call_named h seat nofun
  | pop seat k =>
    simp only [step]
    split
    next => exact hSame h
    next issue hIssue => exact hSame (pop_named h seat (List.mem_of_getElem? hIssue))
  | top seat =>
    simp only [step]
    split
    next => exact hSame h
    next w hWorld => exact hSame (top_named h hWorld)
  | bottom seat =>
    simp only [step]
    split
    next => exact hSame h
    next w hWorld => exact hSame (bottom_named h hWorld)
  | host f =>
    exact hSame ⟨h.made, h.distinct, h.live, h.nextId, h.owners, h.seated, h.issued⟩

theorem run_named (h : s.Named names) (acts : List (Act σ)) :
    ∃ more, (s.run acts).Named (names ++ more) := by
  induction acts generalizing s names with
  | nil => exact ⟨[], (List.append_nil names).symm ▸ h⟩
  | cons act acts ih =>
    obtain ⟨more, hStep⟩ := step_named h act
    obtain ⟨later, hRun⟩ := ih hStep
    exact ⟨more ++ later, List.append_assoc names more later ▸ hRun⟩

end Watch

/-! ### What a handle is worth -/

/-- How the arena in a seat treats a handle that some arena has issued. -/
structure Watch.Treats {σ : Type} (s : Watch σ) (issue : Issue) (i : Nat) (w : World σ) : Prop where
  accepted : (w.popMark issue.handle).1 = .ok () ↔ issue.seat = i ∧ issue.mark ∈ s.stack i
  refused : ¬(issue.seat = i ∧ issue.mark ∈ s.stack i) →
    w.popMark issue.handle = (.error (.invalidMark issue.handle.id), w)
  /-- The mark is popped with all marks above it, and those below it stay. -/
  popped : issue.mark ∈ s.stack i → (s.stack i).head? ≠ some issue.mark →
    (w.popMark issue.handle).2.arena.marks = w.arena.marks.take ((s.stack i).idxOf issue.mark)
  bottom : (s.stack i).head? = some issue.mark → w.popMark issue.handle = (.ok (), w)

/-- Handles are worth what their marks are, and no two marks have the same one. -/
structure Watch.Honours {σ : Type} (s : Watch σ) : Prop where
  treats : ∀ issue ∈ s.issued, ∀ i w, s.pool.world? i = some w → s.Treats issue i w
  /-- The stack that the callers know of is as high as the one that the arena has. -/
  height : ∀ i w, s.pool.world? i = some w → (s.stack i).length = w.arena.marks.length
  equal : ∀ issue ∈ s.issued, ∀ other ∈ s.issued,
    issue.handle = other.handle ↔ issue.seat = other.seat ∧ issue.mark = other.mark

namespace Watch

variable {σ : Type} {s : Watch σ} {names : List Handle}

theorem Named.equal_iff {issue other : Issue} (h : s.Named names) (hIssue : issue ∈ s.issued)
    (hOther : other ∈ s.issued) :
    issue.handle = other.handle ↔ issue.seat = other.seat ∧ issue.mark = other.mark := by
  obtain ⟨hName, hSeat⟩ := h.issued issue hIssue
  obtain ⟨hOtherName, hOtherSeat⟩ := h.issued other hOther
  constructor
  · intro hEq
    rw [← hEq] at hOtherName hOtherSeat
    exact ⟨Nat.succ.inj (hSeat.symm.trans hOtherSeat), h.distinct.eq_of_getElem? hName hOtherName⟩
  · rintro ⟨-, hMark⟩
    rw [hMark, hOtherName] at hName
    exact (Option.some.inj hName).symm

theorem Named.treats {issue : Issue} {i : Nat} {w : World σ} (h : s.Named names)
    (hIssue : issue ∈ s.issued) (hWorld : s.pool.world? i = some w) : s.Treats issue i w where
  accepted := by
    by_cases hLive : issue.mark ∈ s.stack i
    · rw [h.popMark_live hIssue hWorld hLive]
      simp [hLive, h.seat_eq hIssue hWorld hLive]
    · rw [h.popMark_stale hIssue hWorld hLive]
      simp [hLive]
  refused := by
    intro hNot
    exact h.popMark_stale hIssue hWorld fun hLive => hNot ⟨h.seat_eq hIssue hWorld hLive, hLive⟩
  popped := by
    intro hLive hAbove
    have hPlace : (s.stack i).idxOf issue.mark ≠ 0 := by
      intro hZero
      have hAt := List.getElem?_idxOf hLive
      rw [hZero, ← List.head?_eq_getElem?] at hAt
      exact hAbove hAt
    rw [h.popMark_live hIssue hWorld hLive, if_neg hPlace]
    show w.arena.marks.take ((s.stack i).idxOf issue.mark - 1 + 1) = _
    rw [Nat.sub_add_cancel (Nat.pos_of_ne_zero hPlace)]
  bottom := by
    intro hBottom
    obtain ⟨above, hStack⟩ := List.head?_eq_some_iff.mp hBottom
    have hLive : issue.mark ∈ s.stack i := hStack ▸ List.mem_cons_self
    rw [h.popMark_live hIssue hWorld hLive, hStack, List.idxOf_cons_self, if_pos rfl]

theorem Named.honours (h : s.Named names) : s.Honours where
  treats := fun _ hIssue _ _ hWorld => h.treats hIssue hWorld
  height := by
    intro i w hWorld
    rw [(h.seated_of_world? hWorld).2.2.length_eq, length_roster_ids]
  equal := fun _ hIssue _ hOther => h.equal_iff hIssue hOther

/-- Whatever is done to any number of arenas, each of them accepts a handle, however old, exactly if
it has issued the handle itself and the mark has not been popped since. -/
theorem run_honours (host : Host σ) (acts : List (Act σ)) : ((begin host).run acts).Honours := by
  obtain ⟨names, hNamed⟩ := run_named (begin_named host) acts
  exact hNamed.honours

/-- A handle goes stale though a mark stands at its depth again. -/
example :
    let s := (begin ⟨Heap.empty, fun _ => 0, []⟩).run [.create Heap.limited ⟨0, false⟩,
      .call 0 .pushMark, .call 0 .popFrame, .call 0 (.pushFrame 40), .top 0]
    s.stack 0 = [0, 2] ∧ s.issued = [⟨⟨1, 1, 1⟩, 0, 1⟩, ⟨⟨1, 1, 2⟩, 0, 2⟩] ∧
      ((s.pool.world? 0).map fun w => (w.popMark ⟨1, 1, 1⟩).1.isOk) = some false := by
  decide +kernel

end Watch

end ArenaRegistry.Arena
