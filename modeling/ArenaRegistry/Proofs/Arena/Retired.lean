import ArenaRegistry.Proofs.Arena.Discipline
import ArenaRegistry.Proofs.Arena.Session

/-! The place that an allocation has moved away from. It is no allocation of the caller's any more,
but books in which it still is one stay right along with those of the caller as long as its mark is
on the stack. So none of its bytes is handed out again, and none changes. -/

namespace ArenaRegistry.Arena

/-- What is found in a list is found around one more element, and it can be changed there. -/
theorem exists_index_around {α : Type} {xs ys : List α} (between : α) {i : Nat} {x : α}
    (h : (xs ++ ys)[i]? = some x) :
    ∃ j, (xs ++ between :: ys)[j]? = some x ∧
      ∀ f, ∃ xs' ys', xs'.length = xs.length ∧ (xs ++ ys).modify i f = xs' ++ ys' ∧
        (xs ++ between :: ys).modify j f = xs' ++ between :: ys' := by
  induction xs generalizing i with
  | nil => exact ⟨i + 1, h, fun f => ⟨[], ys.modify i f, rfl, rfl, rfl⟩⟩
  | cons first xs ih =>
    cases i with
    | zero => exact ⟨0, h, fun f => ⟨f first :: xs, ys, rfl, rfl, rfl⟩⟩
    | succ i =>
      obtain ⟨j, hFound, hChange⟩ := ih h
      refine ⟨j + 1, hFound, fun f => ?_⟩
      obtain ⟨xs', ys', hLength, hLeft, hRight⟩ := hChange f
      exact ⟨first :: xs', ys', congrArg Nat.succ hLength, congrArg (first :: ·) hLeft,
        congrArg (first :: ·) hRight⟩

/-- A ledger has all allocations of a fuller one but for one, which is of the level at a depth and
not the newest there. -/
inductive Ledger.Omits (old : Allocation) (depth : Nat) : Ledger → Ledger → Prop
  | here (mark : Span) {newer older : List Allocation} {below : Ledger} (later : newer ≠ [])
      (height : below.length = depth) :
      Omits old depth (⟨mark, newer ++ older⟩ :: below) (⟨mark, newer ++ old :: older⟩ :: below)
  | above (level : Level) {ledger full : Ledger} (rest : Omits old depth ledger full) :
      Omits old depth (level :: ledger) (level :: full)

namespace Ledger.Omits

variable {old : Allocation} {depth : Nat} {ledger full : Ledger}

theorem length_eq (h : Omits old depth ledger full) : full.length = ledger.length := by
  induction h with
  | here => rfl
  | above level rest ih => rw [List.length_cons, List.length_cons, ih]

theorem depth_lt (h : Omits old depth ledger full) : depth < ledger.length := by
  induction h with
  | here mark later height => rw [List.length_cons, height]; exact Nat.lt_succ_self _
  | above level rest ih => exact Nat.lt_succ_of_lt ih

theorem add (h : Omits old depth ledger full) (r : Allocation) :
    Omits old depth (ledger.add r) (full.add r) := by
  cases h with
  | @here mark newer older below later height =>
    exact .here mark (List.cons_ne_nil r newer) height
  | above level rest => exact .above _ rest

theorem resize (h : Omits old depth ledger full) (m : Memory) (span : Span) :
    Omits old depth (ledger.resize m span) (full.resize m span) := by
  cases h with
  | @here mark newer older below later height =>
    obtain ⟨newest, newer, rfl⟩ := List.exists_cons_of_ne_nil later
    exact .here mark (List.cons_ne_nil (newest.resized m span) newer) height
  | above level rest =>
    obtain ⟨mark, live⟩ := level
    cases live with
    | nil => exact .above _ rest
    | cons newest older => exact .above _ rest

theorem drop (h : Omits old depth ledger full) (n : Nat) (hLeft : depth < (ledger.drop n).length) :
    Omits old depth (ledger.drop n) (full.drop n) := by
  induction n generalizing ledger full with
  | zero => exact h
  | succ n ih =>
    cases h with
    | here mark later height =>
      rw [List.drop_succ_cons, List.length_drop] at hLeft
      omega
    | above level rest => exact ih rest hLeft

theorem keep (h : Omits old depth ledger full) {count : Nat} (hCount : depth < count) :
    Omits old depth (ledger.keep count) (full.keep count) := by
  have hDepth := h.depth_lt
  rw [Ledger.keep, Ledger.keep, h.length_eq]
  refine h.drop _ ?_
  rw [List.length_drop]
  omega

/-- The last allocation is left behind when it is somewhere else. -/
theorem of_resize (mark : Span) (r : Allocation) (older : List Allocation) (below : Ledger)
    (m : Memory) (span : Span) :
    Omits r below.length (Ledger.resize m span (⟨mark, r :: older⟩ :: below))
      (⟨mark, r.resized m span :: r :: older⟩ :: below) := by
  have hNewer : [r.resized m span] ≠ [] := List.cons_ne_nil _ _
  exact .here mark hNewer rfl

/-! ### Calls and writes -/

/-- A call that does not pop the mark of the omitted allocation is booked alike in both ledgers. -/
theorem book {σ : Type} {w w' : World σ} {op : Op} {reply : Reply}
    (h : Omits old depth ledger full) (hLength : ledger.length = w.arena.depth + 1)
    (hPops : ¬w.Pops depth op) (hStep : w.step op = (.ok reply, w')) :
    Omits old depth (w.book w' ledger op reply) (w.book w' full op reply) := by
  have hDepth := h.depth_lt
  unfold World.book
  split
  · exact h.add _
  · exact h.add _
  · exact .above _ h
  · exact .above _ h
  · exact .above _ h
  next handle =>
    split
    · exact h
    next hBottom =>
      refine h.keep (Nat.lt_of_not_le fun hLe => ?_)
      by_cases hLive : w.arena.isLive handle = true
      · exact hPops ⟨hLive, Bool.eq_false_iff.mpr hBottom, hLe⟩
      · simp [World.step, World.popMark, hLive, World.reported, replied] at hStep
  · rw [h.length_eq]
    split
    · exact h
    next hLevels =>
      have hAbove : ¬(0 < w.arena.depth ∧ w.arena.depth ≤ depth) := hPops
      rw [← List.drop_one, ← List.drop_one]
      refine h.drop 1 ?_
      rw [List.length_drop]
      omega
  · exact h.resize _ _
  · exact h.resize _ _
  · exact h.resize _ _
  · exact h

/-- An allocation of the ledger is one of the fuller one too, and it can be changed there. -/
theorem find? {level index : Nat} {r : Allocation} (h : Omits old depth ledger full)
    (hFound : ledger.find? level index = some r) :
    ∃ index', full.find? level index' = some r ∧
      ∀ f, Omits old depth (ledger.change level index f) (full.change level index' f) := by
  induction h generalizing level with
  | @here mark newer older below later height =>
    cases level with
    | zero =>
      obtain ⟨index', hThere, hChange⟩ := exists_index_around old
        (show (newer ++ older)[index]? = some r from hFound)
      refine ⟨index', hThere, fun f => ?_⟩
      obtain ⟨newer', older', hLength, hLeft, hRight⟩ := hChange f
      have hNonempty : newer' ≠ [] := by
        rw [← List.length_pos_iff, hLength]
        exact List.length_pos_iff.mpr later
      simp only [Ledger.change, List.modify_zero_cons, hLeft, hRight]
      exact .here mark hNonempty height
    | succ level =>
      exact ⟨index, hFound, fun f => .here mark later ((List.length_modify ..).trans height)⟩
  | above top rest ih =>
    cases level with
    | zero => exact ⟨index, hFound, fun f => .above _ rest⟩
    | succ level =>
      obtain ⟨index', hThere, hChange⟩ := ih hFound
      exact ⟨index', hThere, fun f => .above _ (hChange f)⟩

/-! ### What the caller cannot reach -/

theorem mem_live (h : Omits old depth ledger full) : old ∈ full.live := by
  induction h with
  | here mark later height =>
    exact List.mem_append_left _ (List.mem_append_right _ (List.mem_cons_self ..))
  | above level rest ih => exact List.mem_append_right _ ih

theorem spans_perm (h : Omits old depth ledger full) :
    (full.flatMap Level.spans).Perm (old.span :: ledger.flatMap Level.spans) := by
  induction h with
  | here mark later height =>
    simp only [List.flatMap_cons, Level.spans, Level.ranges, List.map_append, List.map_cons,
      List.append_assoc, List.cons_append]
    exact List.perm_middle
  | above level rest ih =>
    rw [List.flatMap_cons, List.flatMap_cons]
    exact (ih.append_left _).trans List.perm_middle

end Ledger.Omits

/-! ### Runs -/

namespace Session

variable {σ : Type}

/-- An action pops the mark at a depth. -/
def Pops (s : Session σ) (depth : Nat) : Action → Prop
  | .call op => s.world.Pops depth op
  | .write .. => False

instance (s : Session σ) (depth : Nat) : (action : Action) → Decidable (s.Pops depth action)
  | .call op => inferInstanceAs (Decidable (s.world.Pops depth op))
  | .write .. => inferInstanceAs (Decidable False)

/-- No action of a run pops the mark at a depth. -/
def Spares (depth : Nat) : Session σ → List Action → Prop
  | _, [] => True
  | s, action :: actions => ¬s.Pops depth action ∧ Spares depth (s.step action) actions

instance decidableSpares (depth : Nat) : (s : Session σ) → (actions : List Action) →
    Decidable (s.Spares depth actions)
  | _, [] => inferInstanceAs (Decidable True)
  | s, action :: actions =>
    have := decidableSpares depth (s.step action) actions
    inferInstanceAs (Decidable (_ ∧ _))

end Session

section Runs

variable {σ : Type} {src : BlockSource σ} {s : Session (Traced σ)} {old : Allocation} {depth : Nat}
  {full : Ledger}

/-- The books that know of one allocation more stay right, as long as its mark is not popped. -/
theorem Ledger.Omits.step (h : Ledger.Omits old depth s.ledger full)
    (hBooked : s.world.Booked src full) {action : Action} (hPops : ¬s.Pops depth action)
    (hSound : Traffic.Sound (s.step action).world.traffic) :
    ∃ full', Ledger.Omits old depth (s.step action).ledger full' ∧
      (s.step action).world.Booked src full' := by
  cases action with
  | call op =>
    have hCall := World.booked_call hBooked op
    have hLength : s.ledger.length = s.world.arena.depth + 1 := by
      rw [← h.length_eq, hBooked.length_eq]
    unfold World.Books at hCall
    rcases hStep : s.world.step op with ⟨_ | reply, w'⟩ <;>
      simp only [Session.step, Session.call, hStep] at hCall hSound ⊢
    · exact ⟨full, h, hCall hSound⟩
    · exact ⟨_, h.book hLength hPops hStep, hCall hSound⟩
  | write level index place bytes =>
    rw [Session.step]
    rcases s.write_cases level index place bytes with hWrite | ⟨r, hFound, hInside, hWrite⟩ <;>
      rw [hWrite]
    · exact ⟨full, h, hBooked⟩
    · obtain ⟨index', hThere, hChange⟩ := h.find? hFound
      exact ⟨_, hChange _, hBooked.write hThere hInside⟩

theorem Ledger.Omits.run (h : Ledger.Omits old depth s.ledger full)
    (hBooked : s.world.Booked src full) (actions : List Action) (hSpares : s.Spares depth actions)
    (hSound : Traffic.Sound (s.run actions).world.traffic) :
    ∃ full', Ledger.Omits old depth (s.run actions).ledger full' ∧
      (s.run actions).world.Booked src full' := by
  induction actions generalizing s full with
  | nil => exact ⟨full, h, hBooked⟩
  | cons action actions ih =>
    have hGrows := Session.run_traffic_grows
      (Session.step_source hBooked.orderly.source action) actions
    obtain ⟨full', hNext, hNextBooked⟩ := h.step hBooked hSpares.1 (hSound.before hGrows)
    exact ih hNext hNextBooked hSpares.2 hSound

/-- Until its mark is popped, what the books of the caller omit overlaps nothing in them, and its
bytes are what they were. -/
theorem Ledger.Omits.retired (h : Ledger.Omits old depth s.ledger full)
    (hBooked : s.world.Booked src full) {actions : List Action} (hSpares : s.Spares depth actions)
    (hSound : Traffic.Sound (s.run actions).world.traffic) :
    (∀ span ∈ (s.run actions).ledger.flatMap Level.spans, span.Disjoint old.span) ∧
      ∀ i < old.span.size, (s.run actions).world.memory (old.span.start + i) = old.contents i := by
  obtain ⟨full', hOmits, hBooked'⟩ := h.run hBooked actions hSpares hSound
  have hApart := hBooked'.disjoint.perm hOmits.spans_perm fun hDisjoint => hDisjoint.symm
  exact ⟨fun span hSpan => ((List.pairwise_cons.mp hApart).1 span hSpan).symm,
    hBooked'.contents old hOmits.mem_live⟩

end Runs

/-! ### Where it starts -/

namespace World

variable {σ : Type} {src : BlockSource σ} {w w' : World (Traced σ)} {mark span : Span}
  {older : List Allocation} {below : Ledger}

/-- Books say what is in memory, in whatever words. -/
theorem Booked.reword {x y : Allocation} (h : w.Booked src (⟨mark, x :: older⟩ :: below))
    (hSpan : y.span = x.span)
    (hContents : ∀ i < y.span.size, w.memory (y.span.start + i) = y.contents i) :
    w.Booked src (⟨mark, y :: older⟩ :: below) := by
  have hRanges : Level.ranges ⟨mark, y :: older⟩ = Level.ranges ⟨mark, x :: older⟩ := by
    simp only [Level.ranges, List.map_cons, hSpan]
  refine ⟨h.orderly, ?_, ?_, ?_, ?_⟩
  · obtain ⟨m, ms, hLevel, hBelow, hMarks⟩ := List.forall₂_cons_right_iff.mp h.tracked
    rw [hMarks]
    exact .cons ⟨by rw [hRanges]; exact hLevel.last, by rw [hRanges]; exact hLevel.covers⟩ hBelow
  · have := h.disjoint
    rwa [List.flatMap_cons, Level.spans, ← hRanges, ← Level.spans, ← List.flatMap_cons] at this
  · intro z hz
    rcases List.mem_cons.mp hz with rfl | hz
    · rw [hSpan]
      exact h.whole x (List.mem_cons_self ..)
    · exact h.whole z (List.mem_cons_of_mem _ hz)
  · intro z hz
    rcases List.mem_cons.mp hz with rfl | hz
    · exact hContents
    · exact h.contents z (List.mem_cons_of_mem _ hz)

/-- When the last allocation was carved anew elsewhere, books in which it is still where it was as
well are right. -/
theorem Booked.retire {e : Edit} {ledger : Ledger} {last : Nat} (h : w.Booked src ledger)
    (hLast : w.arena.top.last = some last) (hEdit : w.Edits e w')
    (hCarves : e.Carves w.arena span) (hSound : Traffic.Sound w'.traffic)
    (h' : w'.Booked src (ledger.resize w'.memory span)) :
    ∃ old full, old.span = ⟨last, w.arena.sizeOfLast last⟩ ∧ old ∈ ledger.live ∧
      Ledger.Omits old w.arena.depth (ledger.resize w'.memory span) full ∧ w'.Booked src full := by
  obtain ⟨marks, ⟨mark, live⟩, below, -, rfl, -, -, hLevel, -⟩ := h.exists_level
  have hNewest := hLevel.last
  rw [w.arena.lastSpan?_top hLast] at hNewest
  cases live with
  | nil => cases hNewest
  | cons old older =>
    have hHeight : below.length = w.arena.depth := Nat.add_right_cancel h.length_eq
    have hFull : w'.Booked src (⟨mark, old.resized w'.memory span :: old :: older⟩ :: below) :=
      (h.add hEdit hCarves hSound).reword rfl (h'.contents _ (List.mem_cons_self ..))
    refine ⟨old, _, Option.some.inj hNewest, List.mem_cons_self .., ?_, hFull⟩
    rw [← hHeight]
    exact .of_resize mark old older below w'.memory span

end World

end ArenaRegistry.Arena
