import ArenaRegistry.Proofs.Registry.Turn

/-! Calls that fail. A call makes all of its checks before its change, so a failure leaves the
registry as it was, and the calls that fail can be left out of any run. -/

namespace ArenaRegistry.Registry

variable {r : Registry} {op : Op} {e : PointerError} {α β : Type}

/-- An outcome that comes with the registry as it was, if it is a failure. -/
def Cautious (r : Registry) (outcome : Except PointerError α × Registry) : Prop :=
  ∀ e, outcome.1 = .error e → outcome.2 = r

theorem cautious_same (r : Registry) (answer : Except PointerError α) : r.Cautious (answer, r) :=
  fun _ _ => rfl

theorem cautious_ok (r r' : Registry) (answer : α) : r.Cautious (.ok answer, r') := by
  intro e hError
  cases hError

theorem Cautious.map {outcome : Except PointerError α × Registry} (h : r.Cautious outcome)
    (f : α → β) : r.Cautious (outcome.map (·.map f) id) := by
  intro e hError
  obtain ⟨_ | answer, after⟩ := outcome
  · exact h _ rfl
  · cases hError

/-! ### Each call -/

theorem registerAs_cautious (r : Registry) (address : UInt64) (tag : Option Tag) (mode : Mode) :
    r.Cautious (r.registerAs address tag mode) := by
  unfold registerAs
  split
  · exact cautious_same r _
  · simp only
    cases r.verdict address (Pointer.wrap address tag).tag mode with
    | conflict existing => exact cautious_same r _
    | _ => exact cautious_ok r _ _

theorem unregisterTagged_cautious (r : Registry) (address : UInt64) (expected : Option Tag) :
    r.Cautious (r.unregisterTagged address expected) := by
  rcases r.unregisterTagged_cases address expected with ⟨e, hFails⟩ | ⟨record, -, -, hOk⟩
  · rw [hFails]
    exact cautious_same r _
  · rw [hOk]
    exact cautious_ok r _ _

theorem releasePointer_cautious (r : Registry) (p : Pointer) : r.Cautious (r.releasePointer p) := by
  rcases r.releasePointer_cases p with ⟨e, hFails⟩ | ⟨record, -, -, hOk⟩
  · rw [hFails]
    exact cautious_same r _
  · rw [hOk]
    exact cautious_ok r _ _

theorem unregisterValue_cautious (r : Registry) (v : Pointer.Value) (expected : Option Tag) :
    r.Cautious (r.unregisterValue v expected) := by
  rcases r.unregisterValue_cases v expected with ⟨e, hFails⟩ | ⟨p, -, ⟨-, hNull⟩ | ⟨-, hOk⟩⟩
  · rw [hFails]
    exact cautious_same r _
  · rw [hNull]
    exact cautious_same r _
  · rw [hOk]
    exact releasePointer_cautious r p

theorem unregisterAnyOf_cautious (r : Registry) (v : Pointer.Value) (tags : List Tag) :
    r.Cautious (r.unregisterAnyOf v tags) := by
  rcases r.unregisterAnyOf_cases v tags with ⟨e, hFails⟩ | ⟨p, -, hOk⟩
  · rw [hFails]
    exact cautious_same r _
  · rw [hOk]
    exact releasePointer_cautious r p

theorem invalidateTagged_cautious (r : Registry) (address : UInt64) (expected : Option Tag) :
    r.Cautious (r.invalidateTagged address expected) := by
  rcases r.invalidateTagged_cases address expected with ⟨answer, hStays⟩ | hGone
  · rw [hStays]
    exact cautious_same r _
  · rw [hGone]
    exact cautious_ok r _ _

theorem cast_cautious (r : Registry) (v : Pointer.Value) (tag : Option Tag) :
    r.Cautious (r.cast v tag) := by
  rcases r.cast_cases v tag with ⟨e, hFails⟩ | ⟨p, -, -, hOk⟩
  · rw [hFails]
    exact cautious_same r _
  · rw [hOk]
    exact cautious_ok r _ _

theorem step_cautious (r : Registry) (op : Op) : r.Cautious (r.step op) := by
  cases op with
  | register address tag => exact (registerAs_cautious r address tag .uncounted).map _
  | registerCounted address tag => exact (registerAs_cautious r address tag (.counted 1)).map _
  | pin address => exact (registerAs_cautious r address none .pinned).map _
  | unregister address => exact (unregisterTagged_cautious r address none).map _
  | unregisterTagged address expected => exact (unregisterTagged_cautious r address expected).map _
  | unregisterValue value expected => exact (unregisterValue_cautious r value expected).map _
  | unregisterAnyOf value tags => exact (unregisterAnyOf_cautious r value tags).map _
  | invalidate address => exact cautious_ok r _ _
  | invalidateTagged address expected => exact (invalidateTagged_cautious r address expected).map _
  | cast value tag => exact (cast_cautious r value tag).map _
  | defineSubtag sub sup => exact cautious_ok r _ _
  | removeSubtag tag => exact cautious_ok r _ _
  | intern text => exact cautious_ok r _ _
  | clear => exact cautious_ok r _ _
  | _ => exact cautious_same r _

/-! ### Runs -/

/-- The calls of a run that succeed. -/
def succeeding (r : Registry) : List Op → List Op
  | [] => []
  | op :: ops =>
    if (r.step op).1.isOk then op :: (r.step op).2.succeeding ops else r.succeeding ops

/-- A run leads where its successful calls lead on their own. -/
theorem run_succeeding (r : Registry) (ops : List Op) : r.run (r.succeeding ops) = r.run ops := by
  induction ops generalizing r with
  | nil => rfl
  | cons op ops ih =>
    rw [succeeding]
    cases hStep : (r.step op).1 with
    | ok reply => exact ih (r.step op).2
    | error e =>
      have hSame : (r.step op).2 = r := step_cautious r op e hStep
      show r.run (r.succeeding ops) = (r.step op).2.run ops
      rw [hSame]
      exact ih r

/-- A call that fails leaves the records in their order, the definitions, the atoms and the settings
as they were. -/
theorem step_eq_of_error (h : (r.step op).1 = .error e) : (r.step op).2 = r :=
  step_cautious r op e h

theorem step_eq_of_error_each :
    let r := (empty ⟨10, .reject, true⟩).run
      [.defineSubtag ⟨"Dog"⟩ (some ⟨"Animal"⟩), .registerCounted 16 (some ⟨"Dog"⟩), .pin 32]
    (r.step (.unregisterValue (.text "0x") none)).2 = r ∧
      (r.step (.registerCounted 0 (some ⟨"Dog"⟩))).2 = r ∧
      (r.step (.cast (.text "0x10^Animal") (some ⟨"Car"⟩))).2 = r ∧
      (r.step (.unregister 48)).2 = r ∧
      (r.step (.registerCounted 16 (some ⟨"Animal"⟩))).2 = r := by
  intro r
  have hFormat : (r.step (.unregisterValue (.text "0x") none)).1 = .error (.format "0x") := rfl
  have hNull : (r.step (.registerCounted 0 (some ⟨"Dog"⟩))).1 = .error .nullPointer := rfl
  have hMismatch : (r.step (.cast (.text "0x10^Animal") (some ⟨"Car"⟩))).1 =
      .error (.typeMismatch "Car" "Animal") := rfl
  have hMissing : (r.step (.unregister 48)).1 = .error (.unregistered 48 none) := rfl
  have hConflict : (r.step (.registerCounted 16 (some ⟨"Animal"⟩))).1 =
      .error (.registrationConflict (Pointer.wrap 16 (some ⟨"Animal"⟩)).text
        (Pointer.wrap 16 (some ⟨"Dog"⟩)).text) := rfl
  exact ⟨step_eq_of_error hFormat, step_eq_of_error hNull, step_eq_of_error hMismatch,
    step_eq_of_error hMissing, step_eq_of_error hConflict⟩

end ArenaRegistry.Registry
