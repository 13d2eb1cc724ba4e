import ArenaRegistry.Proofs.Registry.Locality
import ArenaRegistry.Proofs.Registry.WellFormed
import ArenaRegistry.Proofs.Tag.Walks

/-! Which of the pointers that registrations hand out the registry honours later. A check of a
pointer asks whether the registered tag fits the tag of the pointer, while a registration asks
whether the new tag fits the registered one. The two agree whenever the record is entered or
replaced. They disagree where the address already has a record in the same mode under a wider tag,
which that record keeps. -/

namespace ArenaRegistry.Registry

variable {r r' : Registry} {address : UInt64} {tag : Tag} {tag? : Option Tag} {mode : Mode}
  {v : Pointer} {existing record : Record} {op : Op}

/-- A registration of an address under a tag, in the mode that a first registration starts in. -/
inductive Op.Registers (address : UInt64) (tag : Tag) : Mode → Op → Prop
  | owned : Registers address tag .uncounted (.register address (some tag))
  | counted : Registers address tag (.counted 1) (.registerCounted address (some tag))

/-- The record that a registration under a tag joins: it is in the same mode, and the tag fits it. -/
structure Joins (r : Registry) (address : UInt64) (tag : Option Tag) (mode : Mode)
    (existing : Record) : Prop where
  found : r.record? address = some existing
  same : existing.mode.same mode = true
  fits : r.subtags.compatible tag existing.tag = true

/-- The address has a record that a registration under the tag joins and whose own tag does not fit
the tag: it is missing, or the tag descends from it. -/
def HasWider (r : Registry) (address : UInt64) (tag : Tag) (mode : Mode) : Prop :=
  ∃ existing ∈ r.record? address, existing.mode.same mode = true ∧
    r.subtags.compatible (some tag) existing.tag = true ∧
    r.subtags.compatible existing.tag (some tag) = false

instance (r : Registry) (address : UInt64) (tag : Tag) (mode : Mode) :
    Decidable (r.HasWider address tag mode) :=
  inferInstanceAs (Decidable (∃ existing ∈ r.record? address, _))

/-- What one reference less leaves of a record: nothing where it was the only one, and else one
reference less under the same tag. -/
inductive Record.Loses : Record → Option Record → Prop
  | owner (tag : Option Tag) : Loses ⟨tag, .uncounted⟩ none
  | last (tag : Option Tag) : Loses ⟨tag, .counted 1⟩ none
  | shared (tag : Option Tag) {n : Nat} (others : 1 ≤ n) :
      Loses ⟨tag, .counted (n + 1)⟩ (some ⟨tag, .counted n⟩)

/-- The pointer passes the check of its tag, and releasing it takes one reference from the record of
its address and leaves everything else alone. -/
structure Honours (r : Registry) (v : Pointer) (tag : Tag) : Prop where
  verified : r.verifyValue (.built v) (some tag) = .ok v
  released : ∃ record left after, r.record? v.address = some record ∧ record.Loses left ∧
    r.unregisterValue (.built v) (some tag) = (.ok v.address, after) ∧
    after.record? v.address = left ∧ Spares v.address r after

/-- The address keeps its record under the registered tag. The pointer fails the check of its own tag
against that one, and releasing it fails and changes nothing. -/
structure Refuses (r : Registry) (v : Pointer) (tag : Tag) (registered : Option Tag) : Prop where
  kept : ∃ record, r.record? v.address = some record ∧ record.tag = registered
  verified : r.verifyValue (.built v) (some tag) = .error (.mismatch (some tag) registered)
  released : r.unregisterValue (.built v) (some tag) =
    (.error (.mismatch (some tag) registered), r)

/-! ### Checks of a pointer under its own tag -/

theorem properTag_some (h : tag ≠ .empty) : Pointer.properTag (some tag) = some tag :=
  Pointer.properTag_of_ne fun hEmpty => h (Option.some.inj hEmpty)

theorem unwrapTagged_own (r : Registry) (hTag : v.tag = some tag) :
    r.unwrapTagged (.built v) (some tag) = .ok v := by
  have hFits : r.subtags.compatible v.tag (some tag) = true := by
    rw [hTag]
    exact Subtags.compatible_self _ _
  show r.checkTag v (some tag) = .ok v
  simp [checkTag, hFits]

theorem verifyValue_own (hTag : v.tag = some tag) (hNonnull : v.address ≠ 0) :
    r.verifyValue (.built v) (some tag) = (r.verifyTagged v.address (some tag)).map fun _ => v := by
  have hNotNull : v.isNull = false := by simpa [Pointer.isNull] using hNonnull
  unfold verifyValue
  rw [unwrapTagged_own r hTag]
  simp only [bind, Except.bind, hNotNull, hTag]
  cases r.verifyTagged v.address (some tag) <;> rfl

theorem unregisterValue_own (hTag : v.tag = some tag) (hNonnull : v.address ≠ 0) :
    r.unregisterValue (.built v) (some tag) =
      (r.unregisterTagged v.address (some tag)).map (·.map fun _ => v.address) id := by
  have hNotNull : v.isNull = false := by simpa [Pointer.isNull] using hNonnull
  unfold unregisterValue
  simp only [unwrapTagged_own r hTag, hNotNull, Bool.false_eq_true, if_false, releasePointer, hTag]
  rcases r.unregisterTagged v.address (some tag) with ⟨_ | _, _⟩ <;> rfl

/-- A record in this mode has a reference to give up. -/
def Mode.Releasable : Mode → Prop
  | .uncounted => True
  | .counted n => 1 ≤ n
  | .pinned => False

theorem Mode.Releasable.ne_pinned (h : mode.Releasable) : mode ≠ .pinned := by
  rintro rfl
  exact h

/-- A release takes one reference. -/
theorem Record.loses_afterRelease (h : record.mode.Releasable) :
    record.Loses record.afterRelease := by
  obtain ⟨tag?, mode⟩ := record
  cases mode with
  | uncounted => exact .owner tag?
  | pinned => exact h.elim
  | counted n =>
    obtain ⟨others, rfl⟩ : ∃ others, n = others + 1 := Nat.exists_eq_add_one.mpr h
    cases others with
    | zero => exact .last tag?
    | succ k => exact .shared tag? (Nat.succ_pos k)

theorem honours_of_fits (hTag : v.tag = some tag) (hNonnull : v.address ≠ 0)
    (hRecord : r.record? v.address = some record) (hMode : record.mode.Releasable)
    (hFits : r.subtags.compatible record.tag (some tag) = true) : r.Honours v tag := by
  constructor
  · rw [verifyValue_own hTag hNonnull]
    simp [verifyTagged, hRecord, hFits, Except.map]
  · refine ⟨record, record.afterRelease, r.leave v.address record.afterRelease, hRecord,
      record.loses_afterRelease hMode, ?_, record?_leave_self .., spares_leave ..⟩
    rw [unregisterValue_own hTag hNonnull]
    simp [unregisterTagged, hRecord, hFits, Except.map]

theorem refuses_of_not_fits (hTag : v.tag = some tag) (hNonnull : v.address ≠ 0)
    (hRecord : r.record? v.address = some record)
    (hFits : r.subtags.compatible record.tag (some tag) = false) :
    r.Refuses v tag record.tag := by
  refine ⟨⟨record, hRecord, rfl⟩, ?_, ?_⟩
  · rw [verifyValue_own hTag hNonnull]
    simp [verifyTagged, hRecord, hFits, Except.map]
  · rw [unregisterValue_own hTag hNonnull]
    simp [unregisterTagged, hRecord, hFits, Except.map]

/-! ### What a registration leaves -/

theorem Policy.verdict_replaces (existing : Record) (policy : Policy) :
    policy.verdict existing = .overwrite existing ∨ policy.verdict existing = .conflict existing := by
  cases policy with
  | overwrite => exact .inl rfl
  | reject => exact .inr rfl

theorem Joins.verdict (h : r.Joins address tag? mode existing) (hFree : existing.mode ≠ .pinned) :
    (existing.mode = .uncounted ∧ r.verdict address tag? mode = .keep) ∨
      ∃ n, r.verdict address tag? mode = .addReference existing n := by
  obtain ⟨hFound, hSame, hFits⟩ := h
  obtain ⟨existingTag, existingMode⟩ := existing
  cases existingMode with
  | pinned => exact absurd rfl hFree
  | uncounted =>
    cases mode with
    | uncounted => left; simp [Registry.verdict, hFound, hFits]
    | _ => cases hSame
  | counted n =>
    cases mode with
    | counted => right; exact ⟨n, by simp [Registry.verdict, hFound, hFits]⟩
    | _ => cases hSame

theorem verdict_of_not_joins (hMode : mode ≠ .pinned)
    (hFree : ∀ record ∈ r.record? address, record.mode ≠ .pinned)
    (hJoins : ∀ existing, ¬r.Joins address tag? mode existing) :
    r.verdict address tag? mode = .enter ∨
      ∃ existing, r.verdict address tag? mode = .overwrite existing ∨
        r.verdict address tag? mode = .conflict existing := by
  cases hFound : r.record? address with
  | none => left; simp [Registry.verdict, hFound]
  | some existing =>
    right
    refine ⟨existing, ?_⟩
    have hNotPinned : existing.mode ≠ .pinned := hFree existing hFound
    have hReplaces := Policy.verdict_replaces existing r.settings.policy
    have hUnfit (hSame : existing.mode.same mode = true) :
        r.subtags.compatible tag? existing.tag = false := by
      rw [← Bool.not_eq_true]
      intro hFits
      exact hJoins existing ⟨hFound, hSame, hFits⟩
    obtain ⟨existingTag, existingMode⟩ := existing
    cases existingMode with
    | pinned => exact absurd rfl hNotPinned
    | uncounted =>
      cases mode with
      | pinned => exact absurd rfl hMode
      | counted => simpa [Registry.verdict, hFound] using hReplaces
      | uncounted => simpa [Registry.verdict, hFound, hUnfit rfl] using hReplaces
    | counted n =>
      cases mode with
      | pinned => exact absurd rfl hMode
      | uncounted => simpa [Registry.verdict, hFound] using hReplaces
      | counted => simpa [Registry.verdict, hFound, hUnfit rfl] using hReplaces

theorem registerAs_eq_ok (h : r.registerAs address tag? mode = (.ok v, r')) :
    address ≠ 0 ∧ v = .wrap address tag? := by
  unfold registerAs at h
  by_cases hNull : address = 0
  · simp [hNull] at h
  · refine ⟨hNull, ?_⟩
    simp only [hNull, if_false] at h
    split at h <;> cases h <;> rfl

theorem registerAs_subtags (h : r.registerAs address tag? mode = (.ok v, r')) :
    r'.subtags = r.subtags := by
  unfold registerAs at h
  split at h
  · cases h
  · simp only at h
    split at h <;> cases h <;> rfl

/-- A registration that joins a record leaves it its tag. -/
theorem Joins.registerAs_record? (h : r.Joins address (some tag) mode existing)
    (hTag : tag ≠ .empty) (hFree : existing.mode ≠ .pinned)
    (hRegister : r.registerAs address (some tag) mode = (.ok v, r')) :
    ∃ record, r'.record? address = some record ∧ record.mode.Releasable ∧
      record.tag = existing.tag := by
  obtain ⟨hNonnull, -⟩ := registerAs_eq_ok hRegister
  unfold registerAs at hRegister
  rw [if_neg hNonnull] at hRegister
  simp only [Pointer.wrap, properTag_some hTag] at hRegister
  rcases h.verdict hFree with ⟨hMode, hKeep⟩ | ⟨n, hShare⟩
  · rw [hKeep] at hRegister
    cases hRegister
    exact ⟨existing, h.found, hMode ▸ trivial, rfl⟩
  · rw [hShare] at hRegister
    cases hRegister
    exact ⟨_, record?_leave_self r address (some _), (Mode.oneMore_bounds n).1, rfl⟩

/-- A registration that succeeds without joining a record leaves one under its own tag. -/
theorem registerAs_record?_of_not_joins (hTag : tag ≠ .empty) (hMode : mode ≠ .pinned)
    (hFree : ∀ record ∈ r.record? address, record.mode ≠ .pinned)
    (hJoins : ∀ existing, ¬r.Joins address (some tag) mode existing)
    (hRegister : r.registerAs address (some tag) mode = (.ok v, r')) :
    r'.record? address = some ⟨some tag, mode⟩ := by
  obtain ⟨hNonnull, -⟩ := registerAs_eq_ok hRegister
  have hEnter : Record.enter (some tag) mode = ⟨some tag, mode⟩ := by
    cases mode with
    | pinned => exact absurd rfl hMode
    | _ => rfl
  unfold registerAs at hRegister
  rw [if_neg hNonnull] at hRegister
  simp only [Pointer.wrap, properTag_some hTag] at hRegister
  rcases verdict_of_not_joins hMode hFree hJoins with hNew | ⟨existing, hOver | hConflict⟩
  · rw [hNew] at hRegister
    cases hRegister
    rw [← hEnter]
    exact record?_leave_self r address (some _)
  · rw [hOver] at hRegister
    cases hRegister
    rw [← hEnter]
    exact record?_leave_self r address (some _)
  · rw [hConflict] at hRegister
    cases hRegister

/-! ### Pointers handed out -/

theorem honours_of_registerAs (hTag : tag ≠ .empty) (hMode : mode.Releasable)
    (hFree : ∀ record ∈ r.record? address, record.mode ≠ .pinned)
    (hRegister : r.registerAs address (some tag) mode = (.ok v, r'))
    (hNoWider : ¬r.HasWider address tag mode) : r'.Honours v tag := by
  obtain ⟨hNonnull, rfl⟩ := registerAs_eq_ok hRegister
  by_cases hJoins : ∃ existing, r.Joins address (some tag) mode existing
  · obtain ⟨existing, hJoin⟩ := hJoins
    obtain ⟨record, hRecord, hReleasable, hSame⟩ :=
      hJoin.registerAs_record? hTag (hFree existing hJoin.found) hRegister
    apply honours_of_fits (properTag_some hTag) hNonnull hRecord hReleasable
    rw [registerAs_subtags hRegister, hSame, ← Bool.not_eq_false]
    intro hUnfit
    exact hNoWider ⟨existing, hJoin.found, hJoin.same, hJoin.fits, hUnfit⟩
  · have hRecord := registerAs_record?_of_not_joins hTag hMode.ne_pinned hFree
      (not_exists.mp hJoins) hRegister
    apply honours_of_fits (properTag_some hTag) hNonnull hRecord hMode
    exact Subtags.compatible_self _ _

theorem refuses_of_registerAs (hTag : tag ≠ .empty)
    (hFree : ∀ record ∈ r.record? address, record.mode ≠ .pinned)
    (hRegister : r.registerAs address (some tag) mode = (.ok v, r'))
    (hWider : r.HasWider address tag mode) :
    ∃ existing ∈ r.record? address, r'.Refuses v tag existing.tag := by
  obtain ⟨hNonnull, rfl⟩ := registerAs_eq_ok hRegister
  obtain ⟨existing, hFound, hSameMode, hFits, hUnfit⟩ := hWider
  have hJoin : r.Joins address (some tag) mode existing := ⟨hFound, hSameMode, hFits⟩
  obtain ⟨record, hRecord, -, hSame⟩ := hJoin.registerAs_record? hTag (hFree _ hFound) hRegister
  refine ⟨existing, hFound, ?_⟩
  rw [← hSame]
  apply refuses_of_not_fits (properTag_some hTag) hNonnull hRecord
  rw [registerAs_subtags hRegister, hSame]
  exact hUnfit

theorem Op.Registers.releasable (h : op.Registers address tag mode) : mode.Releasable := by
  cases h with
  | owned => trivial
  | counted => exact Nat.le_refl 1

theorem Op.Registers.registerAs_eq (h : op.Registers address tag mode)
    (hOk : (r.step op).1 = .ok (.pointer v)) :
    r.registerAs address (some tag) mode = (.ok v, (r.step op).2) := by
  have hStep : r.step op = (r.registerAs address (some tag) mode).map (·.map .pointer) id := by
    cases h <;> rfl
  rw [hStep] at hOk ⊢
  generalize r.registerAs address (some tag) mode = outcome at hOk ⊢
  obtain ⟨answer | p, after⟩ := outcome
  · cases hOk
  · cases hOk
    rfl

end ArenaRegistry.Registry
