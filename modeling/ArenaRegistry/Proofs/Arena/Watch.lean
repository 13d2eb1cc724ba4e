import ArenaRegistry.Arena.Pool
import ArenaRegistry.Proofs.Arena.Roster
import Mathlib.Data.List.Nodup

/-! Arenas under watch. The callers of several arenas number the marks that are pushed and keep every
handle that they are given. Each mark has one handle, over all arenas and for good, and the live marks
of an arena are those that it knows by their handles. -/

namespace ArenaRegistry.Arena

/-- A handle that the arena in a seat has issued, and the mark it was issued for. -/
structure Issue where
  handle : Handle
  seat : Nat
  mark : Nat
deriving DecidableEq

/-- Arenas at work, and what their callers know of the marks. A mark gets a number of its own when it
is pushed, over all arenas; the marks that are live in a seat stand bottom first. -/
structure Watch (σ : Type) where
  pool : Pool σ
  live : List (List Nat)
  made : Nat
  issued : List Issue

/-- What is done to the arenas. Handles are not made up, so a mark is popped with one that was issued
before. -/
inductive Watch.Act (σ : Type)
  | create (src : BlockSource σ) (settings : Settings)
  | close (seat : Nat)
  /-- Any call but the pop of a mark. -/
  | call (seat : Nat) (op : Op)
  /-- The arena in a seat is asked to pop the mark of the handle issued as number `k`. -/
  | pop (seat k : Nat)
  | top (seat : Nat)
  | bottom (seat : Nat)
  /-- Memory is written to, or the sources change in some way. -/
  | host (f : Host σ → Host σ)

/-- The live marks after one was popped and those above it; the bottom mark is never popped. -/
def popTo (mark : Nat) (stack : List Nat) : List Nat :=
  if stack.idxOf mark = 0 then stack else stack.take (stack.idxOf mark)

/-- The live marks after the last one was popped; the bottom mark is never popped. -/
def popLast (stack : List Nat) : List Nat := if stack.length ≤ 1 then stack else stack.dropLast

namespace Watch

variable {σ : Type}

def begin (host : Host σ) : Watch σ := ⟨Pool.empty host, [], 0, []⟩

/-- The live marks of the arena in a seat, bottom first. -/
def stack (s : Watch σ) (seat : Nat) : List Nat := s.live[seat]?.getD []

def issue (s : Watch σ) (handle : Handle) (seat mark : Nat) : Watch σ :=
  { s with issued := s.issued ++ [⟨handle, seat, mark⟩] }

def push (s : Watch σ) (seat : Nat) : Watch σ :=
  { s with live := s.live.set seat (s.stack seat ++ [s.made]), made := s.made + 1 }

/-- What a call that succeeds does to the marks, by its answer. -/
def book (s : Watch σ) (seat : Nat) : Op → Reply → Watch σ
  | .pushMark, .handle h => (s.push seat).issue h seat s.made
  | .pushFrame _, _ | .pushFrameMin _, _ => s.push seat
  | .popFrame, _ => { s with live := s.live.set seat (popLast (s.stack seat)) }
  | _, _ => s

def create (s : Watch σ) (src : BlockSource σ) (settings : Settings) : Watch σ :=
  match s.pool.create src settings with
  | (.ok _, pool) => { s with pool, live := s.live ++ [[s.made]], made := s.made + 1 }
  | (.error _, pool) => { s with pool }

def call (s : Watch σ) (seat : Nat) (op : Op) : Watch σ :=
  match s.pool.step seat op with
  | (some (.ok reply), pool) => { s with pool }.book seat op reply
  | (_, pool) => { s with pool }

def pop (s : Watch σ) (seat : Nat) (issue : Issue) : Watch σ :=
  { s with
    pool := (s.pool.step seat (.popMark issue.handle)).2
    live := s.live.set seat (popTo issue.mark (s.stack seat)) }

def step (s : Watch σ) : Act σ → Watch σ
  | .create src settings => s.create src settings
  | .close seat => { s with pool := s.pool.close seat, live := s.live.set seat [] }
  | .call _ (.popMark _) => s
  | .call seat op => s.call seat op
  | .pop seat k =>
    match s.issued[k]? with
    | none => s
    | some issue => s.pop seat issue
  | .top seat =>
    match s.pool.world? seat with
    | none => s
    | some w => s.issue w.arena.topHandle seat ((s.stack seat).getLastD 0)
  | .bottom seat =>
    match s.pool.world? seat with
    | none => s
    | some w => s.issue w.arena.bottomHandle seat ((s.stack seat).headD 0)
  | .host f => { s with pool := { s.pool with host := f s.pool.host } }

def run (s : Watch σ) (acts : List (Act σ)) : Watch σ := acts.foldl step s

end Watch

/-! ### The names of one arena's marks -/

/-- The marks of a stack are the ones that an arena has, when mark number `k` has the handle
`names[k]`. -/
structure Seated (names : List Handle) (stack : List Nat) (r : Roster) : Prop where
  nonempty : r.ids ≠ []
  aligned : stack.map (names[·]?) = r.handles.map some
  /-- The next number is greater than any that the arena has given. -/
  fresh : ∀ h ∈ names, h.owner = r.owner → h.id < r.next

/-- No two marks have the same arena and number. -/
def Distinct (names : List Handle) : Prop := (names.map fun h => (h.owner, h.id)).Nodup

section Seated

variable {names more : List Handle} {stack : List Nat} {r : Roster} {mark other : Nat}
  {h h' : Handle}

theorem Distinct.nodup (hDistinct : Distinct names) : names.Nodup := List.Nodup.of_map _ hDistinct

theorem Distinct.eq_of_getElem? (hDistinct : Distinct names) (hMark : names[mark]? = some h)
    (hOther : names[other]? = some h) : mark = other := by
  have hLess : mark < names.length := (List.getElem?_eq_some_iff.mp hMark).1
  exact (List.getElem?_inj hLess hDistinct.nodup).mp (hMark.trans hOther.symm)

/-- A mark stands where its handle stands among those of the arena. -/
theorem Seated.getElem? (hSeated : Seated names stack r) (i : Nat) :
    (stack[i]?.map fun mark => names[mark]?) = r.handles[i]?.map some := by
  have hAt := congrArg (·[i]?) hSeated.aligned
  simpa only [List.getElem?_map] using hAt

theorem Seated.length_eq (hSeated : Seated names stack r) : stack.length = r.ids.length := by
  have hLength := congrArg List.length hSeated.aligned
  simpa [Roster.length_handles] using hLength

theorem Seated.handle_of_getElem? (hSeated : Seated names stack r) {i : Nat}
    (hMark : stack[i]? = some mark) (hName : names[mark]? = some h) : r.handles[i]? = some h := by
  have hAt := hSeated.getElem? i
  rw [hMark, Option.map_some, hName] at hAt
  cases hHandle : r.handles[i]? with
  | none => rw [hHandle] at hAt; cases hAt
  | some h' =>
    rw [hHandle] at hAt
    exact (Option.some.inj hAt).symm

theorem Seated.mark_of_getElem? (hSeated : Seated names stack r) {i : Nat}
    (hHandle : r.handles[i]? = some h) : ∃ mark, stack[i]? = some mark ∧ names[mark]? = some h := by
  have hAt := hSeated.getElem? i
  rw [hHandle, Option.map_some] at hAt
  exact Option.map_eq_some_iff.mp hAt

/-- A handle is one of the arena's while its mark is on the stack. -/
theorem Seated.mem_handles_iff (hSeated : Seated names stack r) (hDistinct : Distinct names)
    (hName : names[mark]? = some h) : h ∈ r.handles ↔ mark ∈ stack := by
  constructor
  · intro hMem
    obtain ⟨i, hAt⟩ := List.mem_iff_getElem?.mp hMem
    obtain ⟨other, hOther, hOtherName⟩ := hSeated.mark_of_getElem? hAt
    -- No two marks have this handle, so the mark that stands there is the one in question.
    rw [hDistinct.eq_of_getElem? hName hOtherName]
    exact List.mem_of_getElem? hOther
  · intro hMem
    obtain ⟨i, hAt⟩ := List.mem_iff_getElem?.mp hMem
    exact List.mem_of_getElem? (hSeated.handle_of_getElem? hAt hName)

/-- The depth that a handle names is the place of its mark on the stack. -/
theorem Seated.depth_eq (hSeated : Seated names stack r) (hMem : mark ∈ stack)
    (hName : names[mark]? = some h) : h.depth = stack.idxOf mark :=
  Roster.depth_of_getElem? (hSeated.handle_of_getElem? (List.getElem?_idxOf hMem) hName)

theorem Seated.append (hSeated : Seated names stack r)
    (hMore : ∀ h ∈ more, h.owner = r.owner → h.id < r.next) : Seated (names ++ more) stack r := by
  refine ⟨hSeated.nonempty, ?_, fun h hMem hOwner => ?_⟩
  · rw [← hSeated.aligned]
    apply List.map_congr_left
    intro mark hMark
    obtain ⟨i, hAt⟩ := List.mem_iff_getElem?.mp hMark
    have hSome := hSeated.getElem? i
    rw [hAt, Option.map_some] at hSome
    obtain ⟨h, -, hName⟩ := Option.map_eq_some_iff.mp hSome.symm
    exact List.getElem?_append_left (List.getElem?_eq_some_iff.mp hName.symm).1
  · rcases List.mem_append.mp hMem with hOld | hNew
    · exact hSeated.fresh h hOld hOwner
    · exact hMore h hNew hOwner

/-- The bottom mark of an arena that no mark has been of before. -/
theorem Seated.first {owner : Nat} (hNew : ∀ h ∈ names, h.owner ≠ owner) :
    Seated (names ++ [⟨owner, 0, 0⟩]) [names.length] ⟨owner, [0], 1⟩ := by
  refine ⟨by simp, by simp [Roster.handles], fun h hMem hOwner => ?_⟩
  rcases List.mem_append.mp hMem with hBefore | hLast
  · exact absurd hOwner (hNew h hBefore)
  · rw [List.mem_singleton.mp hLast]
    exact Nat.one_pos

theorem Seated.skip (hSeated : Seated names stack r) : Seated names stack r.skip :=
  ⟨hSeated.nonempty, hSeated.aligned,
    fun h hMem hOwner => Nat.lt_succ_of_lt (hSeated.fresh h hMem hOwner)⟩

theorem Seated.push (hSeated : Seated names stack r) :
    Seated (names ++ [r.newest]) (stack ++ [names.length]) r.push := by
  have hGrown : Seated (names ++ [r.newest]) stack r.skip := by
    apply hSeated.skip.append
    intro h hMem _
    rw [List.mem_singleton.mp hMem]
    exact Nat.lt_succ_self r.next
  refine ⟨by simp [Roster.push], ?_, hGrown.fresh⟩
  rw [List.map_append, hGrown.aligned, Roster.handles_push, List.map_append]
  simp [Roster.handles, Roster.skip]

theorem Distinct.append_singleton (hDistinct : Distinct names)
    (hNew : ∀ h ∈ names, h.owner = h'.owner → h.id ≠ h'.id) : Distinct (names ++ [h']) := by
  unfold Distinct
  rw [List.map_append, List.nodup_append]
  refine ⟨hDistinct, List.nodup_singleton _, ?_⟩
  intro key hOld key' hLast hEq
  obtain ⟨h, hMem, rfl⟩ := List.mem_map.mp hOld
  rw [List.map_singleton, List.mem_singleton] at hLast
  obtain ⟨hOwner, hId⟩ := Prod.mk.inj (hEq.trans hLast)
  exact hNew h hMem hOwner hId

theorem Seated.distinct_push (hSeated : Seated names stack r) (hDistinct : Distinct names) :
    Distinct (names ++ [r.newest]) :=
  hDistinct.append_singleton fun h hMem hOwner => Nat.ne_of_lt (hSeated.fresh h hMem hOwner)

theorem Seated.cut (hSeated : Seated names stack r) (depth : Nat) :
    Seated names (stack.take (depth + 1)) (r.cut depth) := by
  refine ⟨?_, ?_, hSeated.fresh⟩
  · have hPos := List.length_pos_iff.mpr hSeated.nonempty
    rw [← List.length_pos_iff]
    simp only [Roster.cut, List.length_take]
    omega
  · rw [List.map_take, hSeated.aligned, Roster.handles_cut, List.map_take]

end Seated

theorem popLast_eq_take (stack : List Nat) : popLast stack = stack.take (stack.length - 2 + 1) := by
  unfold popLast
  split
  next hShort => rw [List.take_of_length_le (by omega)]
  next hLong => rw [List.dropLast_eq_take, show stack.length - 2 + 1 = stack.length - 1 by omega]

theorem popTo_of_not_mem {stack : List Nat} {mark : Nat} (h : mark ∉ stack) :
    popTo mark stack = stack := by
  rw [popTo, List.idxOf_eq_length_iff.mpr h, List.take_length, ite_self]

/-! ### Pools -/

namespace Pool

variable {σ : Type} {p : Pool σ} {i j : Nat} {w : World σ} {seat : Seat σ}

theorem world?_eq_some : p.world? i = some w ↔
    p.seats[i]? = some (some ⟨w.arena, w.source⟩) ∧ w.host = p.host := by
  simp only [world?, Option.map_eq_some_iff, Option.join_eq_some_iff]
  constructor
  · rintro ⟨seat, hSeat, rfl⟩
    exact ⟨hSeat, rfl⟩
  · rintro ⟨hSeat, hHost⟩
    exact ⟨_, hSeat, by rw [← hHost]⟩

theorem ne_of_world?_eq_none (h : p.world? i = none) (hSeat : p.seats[j]? = some (some seat)) :
    j ≠ i := by
  rintro rfl
  have hOpen : p.world? j = some ⟨seat.arena, seat.source, p.host⟩ :=
    world?_eq_some.mpr ⟨hSeat, rfl⟩
  rw [hOpen] at h
  cases h

theorem step_of_world? (h : p.world? i = some w) (op : Op) :
    p.step i op = (some (w.step op).1, p.put i (w.step op).2) := by
  simp only [step, h]

theorem step_of_none (h : p.world? i = none) (op : Op) : p.step i op = (none, p) := by
  simp only [step, h]

/-- A seat that is open after another arena was closed was open before. -/
theorem seats_close (h : (p.close i).seats[j]? = some (some seat)) :
    j ≠ i ∧ p.seats[j]? = some (some seat) := by
  unfold close at h
  cases hWorld : p.world? i with
  | none =>
    simp only [hWorld] at h
    exact ⟨ne_of_world?_eq_none hWorld h, h⟩
  | some w =>
    simp only [hWorld, List.getElem?_set] at h
    split at h
    next => split at h <;> cases h
    next hNe => exact ⟨Ne.symm hNe, h⟩

theorem length_seats_close (p : Pool σ) (i : Nat) : (p.close i).seats.length = p.seats.length := by
  unfold close
  split
  · rfl
  · exact List.length_set

theorem nextId_close (p : Pool σ) (i : Nat) : (p.close i).nextId = p.nextId := by
  unfold close
  split <;> rfl

end Pool

/-! ### The names of all marks -/

namespace Watch

variable {σ : Type}

/-- Mark number `k` has the handle `names[k]`, and every issued handle is the one of its mark. -/
structure Named (s : Watch σ) (names : List Handle) : Prop where
  made : names.length = s.made
  distinct : Distinct names
  live : s.live.length = s.pool.seats.length
  nextId : s.pool.nextId = s.pool.seats.length + 1
  owners : ∀ h ∈ names, h.owner ≤ s.pool.seats.length
  seated : ∀ i seat, s.pool.seats[i]? = some (some seat) →
    seat.arena.roster.owner = i + 1 ∧ Seated names (s.stack i) seat.arena.roster
  issued : ∀ issue ∈ s.issued,
    names[issue.mark]? = some issue.handle ∧ issue.handle.owner = issue.seat + 1

variable {s : Watch σ} {names : List Handle} {i j : Nat} {w w' : World σ}

theorem getD_set {marks : List Nat} (hLess : i < s.live.length) (j : Nat) :
    (s.live.set i marks)[j]?.getD [] = if i = j then marks else s.stack j := by
  rw [stack, List.getElem?_set]
  split
  · rfl
  · rfl

theorem set_stack (s : Watch σ) (i : Nat) : s.live.set i (s.stack i) = s.live := by
  apply List.ext_getElem?
  intro j
  rw [List.getElem?_set]
  split
  next hEq =>
    subst hEq
    split
    next hLess => simp [stack, hLess]
    next hLess => simp [Nat.le_of_not_lt hLess]
  next => rfl

/-- The arena in a seat works, and its callers take note. -/
def turn (s : Watch σ) (i : Nat) (w : World σ) (stack : List Nat) (more : List Handle)
    (new : List Issue) : Watch σ :=
  ⟨s.pool.put i w, s.live.set i stack, s.made + more.length, s.issued ++ new⟩

theorem Named.seated_of_world? (h : s.Named names) (hWorld : s.pool.world? i = some w) :
    i < s.pool.seats.length ∧ w.arena.roster.owner = i + 1 ∧
      Seated names (s.stack i) w.arena.roster := by
  obtain ⟨hSeat, -⟩ := Pool.world?_eq_some.mp hWorld
  exact ⟨(List.getElem?_eq_some_iff.mp hSeat).1, h.seated i _ hSeat⟩

theorem Named.issued_append (h : s.Named names) (more : List Handle) {issue : Issue}
    (hIssue : issue ∈ s.issued) :
    (names ++ more)[issue.mark]? = some issue.handle ∧ issue.handle.owner = issue.seat + 1 := by
  obtain ⟨hName, hOwner⟩ := h.issued issue hIssue
  exact ⟨(List.getElem?_append_left (List.getElem?_eq_some_iff.mp hName).1).trans hName, hOwner⟩

theorem Named.turn {stack : List Nat} (h : s.Named names) (more : List Handle) (new : List Issue)
    (hWorld : s.pool.world? i = some w) (hOwner : w'.arena.roster.owner = i + 1)
    (hSeated : Seated (names ++ more) stack w'.arena.roster) (hDistinct : Distinct (names ++ more))
    (hMore : ∀ h ∈ more, h.owner = i + 1)
    (hNew : ∀ issue ∈ new,
      (names ++ more)[issue.mark]? = some issue.handle ∧ issue.handle.owner = issue.seat + 1) :
    (s.turn i w' stack more new).Named (names ++ more) := by
  obtain ⟨hLess, -, -⟩ := h.seated_of_world? hWorld
  have hLength : (s.pool.put i w').seats.length = s.pool.seats.length := List.length_set
  refine ⟨?_, hDistinct, ?_, ?_, fun name hMem => ?_, fun j seat hSeat => ?_, fun issue hMem => ?_⟩
  · rw [List.length_append, h.made]
    rfl
  · exact List.length_set.trans (h.live.trans hLength.symm)
  · exact h.nextId.trans (congrArg (· + 1) hLength.symm)
  · show name.owner ≤ (s.pool.put i w').seats.length
    rw [hLength]
    rcases List.mem_append.mp hMem with hOld | hAdded
    · exact h.owners name hOld
    · rw [hMore name hAdded]
      exact hLess
  · show _ ∧ Seated (names ++ more) ((s.live.set i stack)[j]?.getD []) seat.arena.roster
    rw [getD_set (h.live ▸ hLess)]
    simp only [Watch.turn, Pool.put, List.getElem?_set] at hSeat
    split at hSeat
    next hEq =>
      subst hEq
      cases hSeat
      rw [if_pos rfl]
      exact ⟨hOwner, hSeated⟩
    next hNe =>
      -- The new names are of the arena that worked, so they use up no number of another one.
      obtain ⟨hOther, hOtherSeated⟩ := h.seated j seat hSeat
      rw [if_neg hNe]
      refine ⟨hOther, hOtherSeated.append fun name hAdded hSame => ?_⟩
      have := hMore name hAdded
      omega
  · rcases List.mem_append.mp hMem with hOld | hAdded
    · exact h.issued_append more hOld
    · exact hNew issue hAdded

/-- The arena in a seat works, and no mark is pushed. -/
theorem Named.turn_none {stack : List Nat} (h : s.Named names)
    (hWorld : s.pool.world? i = some w) (hOwner : w'.arena.roster.owner = i + 1)
    (hSeated : Seated names stack w'.arena.roster) :
    Named { s with pool := s.pool.put i w', live := s.live.set i stack } names := by
  have hTurn := h.turn [] [] hWorld hOwner ((List.append_nil names).symm ▸ hSeated)
    ((List.append_nil names).symm ▸ h.distinct) nofun nofun
  simpa [Watch.turn] using hTurn

theorem Named.turn_same (h : s.Named names) (hWorld : s.pool.world? i = some w)
    (hOwner : w'.arena.roster.owner = i + 1) (hSeated : Seated names (s.stack i) w'.arena.roster) :
    Named { s with pool := s.pool.put i w' } names := by
  have hTurn := h.turn_none hWorld hOwner hSeated
  rwa [set_stack] at hTurn

theorem Named.turn_push (h : s.Named names) (new : List Issue) (hWorld : s.pool.world? i = some w)
    (hPush : w'.arena.roster = w.arena.roster.push)
    (hNew : ∀ issue ∈ new, issue = ⟨w.arena.roster.newest, i, s.made⟩) :
    (s.turn i w' (s.stack i ++ [s.made]) [w.arena.roster.newest] new).Named
      (names ++ [w.arena.roster.newest]) := by
  obtain ⟨-, hOwner, hSeated⟩ := h.seated_of_world? hWorld
  have hPushed := hSeated.push
  rw [h.made, ← hPush] at hPushed
  refine h.turn _ new hWorld (hPush ▸ hOwner) hPushed (hSeated.distinct_push h.distinct) ?_ ?_
  · intro name hMem
    rw [List.mem_singleton.mp hMem]
    exact hOwner
  · intro issue hMem
    rw [hNew issue hMem]
    refine ⟨?_, hOwner⟩
    simp [← h.made]

/-- Whoever is asked for a handle gets the one of the mark. -/
theorem Named.issue {mark : Nat} {handle : Handle} (h : s.Named names)
    (hName : names[mark]? = some handle) (hOwner : handle.owner = i + 1) :
    (s.issue handle i mark).Named names := by
  refine ⟨h.made, h.distinct, h.live, h.nextId, h.owners, h.seated, fun issue hMem => ?_⟩
  rcases List.mem_append.mp hMem with hOld | hNew
  · exact h.issued issue hOld
  · rw [List.mem_singleton.mp hNew]
    exact ⟨hName, hOwner⟩

/-- An arena starts in the next seat. -/
theorem Named.start (h : s.Named names) {seat : Seat σ} (host : Host σ)
    (hRoster : seat.arena.roster = ⟨s.pool.seats.length + 1, [0], 1⟩) :
    Named ⟨⟨host, s.pool.seats ++ [some seat], s.pool.nextId + 1⟩, s.live ++ [[s.made]], s.made + 1,
      s.issued⟩ (names ++ [⟨s.pool.seats.length + 1, 0, 0⟩]) := by
  have hOld : ∀ name ∈ names, name.owner ≠ s.pool.seats.length + 1 :=
    fun name hMem => Nat.ne_of_lt (Nat.lt_succ_of_le (h.owners name hMem))
  refine ⟨by simp [h.made], ?_, by simp [h.live], by simp [h.nextId], fun name hMem => ?_,
    fun j seat' hSeat => ?_, fun _ hMem => ?_⟩
  · exact h.distinct.append_singleton fun name hMem hOwner => absurd hOwner (hOld name hMem)
  · rw [List.length_append, List.length_singleton]
    rcases List.mem_append.mp hMem with hBefore | hNew
    · exact Nat.le_succ_of_le (h.owners name hBefore)
    · obtain rfl := List.mem_singleton.mp hNew
      exact Nat.le_refl _
  · show _ ∧ Seated _ ((s.live ++ [[s.made]])[j]?.getD []) _
    rcases Nat.lt_or_ge j s.pool.seats.length with hLess | hLast
    · rw [List.getElem?_append_left hLess] at hSeat
      obtain ⟨hOwner, hSeated⟩ := h.seated j seat' hSeat
      rw [List.getElem?_append_left (h.live ▸ hLess)]
      refine ⟨hOwner, hSeated.append fun name hMem hSame => ?_⟩
      rw [List.mem_singleton.mp hMem, hOwner] at hSame
      exact absurd (Nat.succ.inj hSame) (Nat.ne_of_gt hLess)
    · rw [List.getElem?_append_right hLast, List.getElem?_singleton] at hSeat
      split at hSeat
      next hEq =>
        cases hSeat
        obtain rfl : j = s.live.length := by rw [h.live]; omega
        rw [hRoster, List.getElem?_concat_length, ← h.made]
        exact ⟨by rw [h.live], Seated.first hOld⟩
      next => cases hSeat
  · exact h.issued_append _ hMem

/-- The marks of a seat that is not open are of no account. -/
theorem Named.shut (h : s.Named names) {pool : Pool σ} (marks : List Nat)
    (hSeats : ∀ j seat, pool.seats[j]? = some (some seat) →
      j ≠ i ∧ s.pool.seats[j]? = some (some seat))
    (hLength : pool.seats.length = s.pool.seats.length) (hNext : pool.nextId = s.pool.nextId) :
    Named { s with pool, live := s.live.set i marks } names := by
  refine ⟨h.made, h.distinct, List.length_set.trans (h.live.trans hLength.symm),
    by rw [hNext, h.nextId, hLength], by rw [hLength]; exact h.owners, fun j seat hSeat => ?_,
    h.issued⟩
  obtain ⟨hNe, hOpen⟩ := hSeats j seat hSeat
  have hStack : (s.live.set i marks)[j]?.getD [] = s.stack j := by
    rw [stack, List.getElem?_set_ne hNe.symm]
  show _ ∧ Seated names ((s.live.set i marks)[j]?.getD []) seat.arena.roster
  rw [hStack]
  exact h.seated j seat hOpen

end Watch

end ArenaRegistry.Arena
