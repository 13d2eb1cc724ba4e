import ArenaRegistry.Registry.Op

/-! What a call can do to a registry, said once. It may turn the record of one address into another
one, enter or take away a definition, intern a text, or clear the registry; a failed call and a mere
question do nothing. -/

namespace ArenaRegistry.Registry

/-- The address whose record a call may change. -/
def Op.target? : Op → Option UInt64
  | .register address _ | .registerCounted address _ | .pin address | .unregister address
  | .unregisterTagged address _ | .invalidate address | .invalidateTagged address _ => some address
  | .unregisterValue value _ | .unregisterAnyOf value _ | .cast value _ => value.address.toOption
  | _ => none

/-- A call is about the record of an address. -/
def Op.Touches (address : UInt64) (op : Op) : Prop := op = .clear ∨ op.target? = some address

instance (address : UInt64) (op : Op) : Decidable (op.Touches address) :=
  inferInstanceAs (Decidable (_ ∨ _))

/-- The modes in which a registration starts. -/
def Mode.IsFirst (mode : Mode) : Prop := mode = .uncounted ∨ mode = .counted 1 ∨ mode = .pinned

/-- What may become of the record of an address in one call. -/
inductive Turns (address : UInt64) : Option Record → Option Record → Prop
  | enter {before : Option Record} (tag : Option Tag) {mode : Mode} (nonnull : address ≠ 0)
      (first : mode.IsFirst) (free : ∀ record ∈ before, record.mode ≠ .pinned) :
      Turns address before (some (.enter tag mode))
  | share (tag : Option Tag) (n : Nat) :
      Turns address (some ⟨tag, .counted n⟩) (some ⟨tag, .counted (Mode.oneMore n)⟩)
  | release (record : Record) : Turns address (some record) record.afterRelease
  | retag (record : Record) (tag : Option Tag) (free : record.mode ≠ .pinned) :
      Turns address (some record) (some { record with tag })
  | forget (before : Option Record) : Turns address before none

/-- What a call leads to. -/
inductive Leads (r : Registry) (op : Op) : Registry → Prop
  | same : Leads r op r
  | turn (address : UInt64) {after : Option Record} (target : op.target? = some address)
      (turns : Turns address (r.record? address) after) : Leads r op (r.leave address after)
  | define (sub : Tag) (sup : Option Tag) : Leads r op (r.defineSubtag sub sup)
  | undefine (tag : Tag) : Leads r op (r.removeSubtag tag)
  | intern (text : String) : Leads r op (r.intern text).2
  | clear (eq : op = .clear) : Leads r op r.clear

variable {r r' : Registry} {op : Op}

/-! ### Registering -/

/-- What a decision on a registration says about the record of the address. -/
def Verdict.Fits (before : Option Record) (mode : Mode) : Verdict → Prop
  | .enter => before = none
  | .keep => before.isSome
  | .addReference existing n => before = some existing ∧ existing.mode = .counted n
  | .pin => mode = .pinned ∧ ∃ existing, before = some existing ∧ existing.mode ≠ .pinned
  | .overwrite existing | .conflict existing => before = some existing ∧ existing.mode ≠ .pinned

theorem Policy.verdict_fits {existing : Record} {before : Option Record} (mode : Mode)
    (h : before = some existing) (hFree : existing.mode ≠ .pinned) (policy : Policy) :
    (policy.verdict existing).Fits before mode := by
  cases policy with
  | overwrite => exact ⟨h, hFree⟩
  | reject => exact ⟨h, hFree⟩

theorem verdict_fits (r : Registry) (address : UInt64) (tag : Option Tag) (mode : Mode) :
    (r.verdict address tag mode).Fits (r.record? address) mode := by
  unfold verdict
  cases hRecord : r.record? address with
  | none => rfl
  | some existing =>
    obtain ⟨existingTag, existingMode⟩ := existing
    have hOther (h : existingMode ≠ .pinned) :
        (r.settings.policy.verdict ⟨existingTag, existingMode⟩).Fits
          (some ⟨existingTag, existingMode⟩) mode :=
      Policy.verdict_fits mode rfl h r.settings.policy
    cases existingMode with
    | pinned => rfl
    | uncounted =>
      cases mode with
      | pinned => exact ⟨rfl, _, rfl, by simp⟩
      | counted => exact hOther (by simp)
      | uncounted =>
        simp only
        split
        · rfl
        · exact hOther (by simp)
    | counted n =>
      cases mode with
      | pinned => exact ⟨rfl, _, rfl, by simp⟩
      | uncounted => exact hOther (by simp)
      | counted =>
        simp only
        split
        · exact ⟨rfl, rfl⟩
        · exact hOther (by simp)

theorem registerAs_leads {address : UInt64} (tag : Option Tag) {mode : Mode}
    (hTarget : op.target? = some address) (hFirst : mode.IsFirst) :
    r.Leads op (r.registerAs address tag mode).2 := by
  unfold registerAs
  split
  next => exact .same
  next hNonnull =>
    have hFits := r.verdict_fits address (Pointer.wrap address tag).tag mode
    simp only
    split
    next hVerdict =>
      rw [hVerdict] at hFits
      have hNone : r.record? address = none := hFits
      exact .turn address hTarget (.enter _ hNonnull hFirst (by simp [hNone]))
    next existing hVerdict =>
      rw [hVerdict] at hFits
      obtain ⟨hRecord, hFree⟩ := hFits
      exact .turn address hTarget (.enter _ hNonnull hFirst (by simpa [hRecord] using hFree))
    next => exact .same
    next existing n hVerdict =>
      rw [hVerdict] at hFits
      obtain ⟨hRecord, hMode⟩ := hFits
      obtain ⟨tag', mode'⟩ := existing
      subst hMode
      exact .turn address hTarget (by rw [hRecord]; exact .share tag' n)
    next hVerdict =>
      rw [hVerdict] at hFits
      obtain ⟨rfl, existing, hRecord, hFree⟩ := hFits
      have hEnter : Turns address (r.record? address) (some (.enter none .pinned)) :=
        .enter none hNonnull hFirst (by simpa [hRecord] using hFree)
      exact .turn address hTarget hEnter
    next => exact .same

/-! ### Values -/

theorem address_of_pointer {v : Pointer.Value} {p : Pointer} (h : v.pointer = .ok p) :
    v.address.toOption = some p.address := by
  rw [Pointer.Value.address, h]
  rfl

theorem address_eq_of_pointer {v : Pointer.Value} {p : Pointer} {address : UInt64}
    (h : v.pointer = .ok p) (hAddress : v.address.toOption = some address) : p.address = address :=
  Option.some.inj ((address_of_pointer h).symm.trans hAddress)

theorem checkTag_eq_ok {p q : Pointer} {expected : Option Tag}
    (h : r.checkTag p expected = .ok q) : q = p := by
  unfold checkTag at h
  simp only at h
  split at h
  · cases h
  · cases h; rfl

/-- Two checks in a row succeed when the first does, and the second on what it returns. -/
theorem bind_eq_ok {α β : Type} {first : Except PointerError α} {next : α → Except PointerError β}
    {answer : β} : (first >>= next) = .ok answer ↔ ∃ a, first = .ok a ∧ next a = .ok answer := by
  cases first with
  | error e => simp [bind, Except.bind]
  | ok a => simp [bind, Except.bind]

theorem unwrapTagged_eq_ok {v : Pointer.Value} {p : Pointer} {expected : Option Tag}
    (h : r.unwrapTagged v expected = .ok p) : v.pointer = .ok p := by
  obtain ⟨q, hPointer, hCheck⟩ := bind_eq_ok.mp h
  rw [checkTag_eq_ok hCheck]
  exact hPointer

theorem unwrapAnyOf_eq_ok {v : Pointer.Value} {p : Pointer} {tags : List Tag}
    (h : r.unwrapAnyOf v tags = .ok p) : v.pointer = .ok p := by
  obtain ⟨q, hPointer, hPasses⟩ := bind_eq_ok.mp h
  split at hPasses
  · cases hPasses
    exact hPointer
  · cases hPasses

/-! ### Releasing -/

theorem unregisterTagged_cases (r : Registry) (address : UInt64) (expected : Option Tag) :
    (∃ e, r.unregisterTagged address expected = (.error e, r)) ∨
      ∃ record, r.record? address = some record ∧
        r.subtags.compatible record.tag expected = true ∧
        r.unregisterTagged address expected = (.ok (), r.leave address record.afterRelease) := by
  unfold unregisterTagged
  cases hRecord : r.record? address with
  | none => exact .inl ⟨_, rfl⟩
  | some record =>
    by_cases hFits : r.subtags.compatible record.tag expected = true
    · exact .inr ⟨record, rfl, hFits, if_pos hFits⟩
    · exact .inl ⟨_, if_neg hFits⟩

/-- The release of a pointer is that of its address under its own tag. -/
theorem releasePointer_cases (r : Registry) (p : Pointer) :
    (∃ e, r.releasePointer p = (.error e, r)) ∨
      ∃ record, r.record? p.address = some record ∧
        r.subtags.compatible record.tag p.tag = true ∧
        r.releasePointer p = (.ok p.address, r.leave p.address record.afterRelease) := by
  rcases r.unregisterTagged_cases p.address p.tag with ⟨e, hFails⟩ | ⟨record, hRecord, hFits, hOk⟩
  · exact .inl ⟨e, by rw [releasePointer, hFails]⟩
  · exact .inr ⟨record, hRecord, hFits, by rw [releasePointer, hOk]⟩

theorem unregisterValue_cases (r : Registry) (v : Pointer.Value) (expected : Option Tag) :
    (∃ e, r.unregisterValue v expected = (.error e, r)) ∨
      ∃ p, r.unwrapTagged v expected = .ok p ∧
        ((p.address = 0 ∧ r.unregisterValue v expected = (.ok 0, r)) ∨
          (p.address ≠ 0 ∧ r.unregisterValue v expected = r.releasePointer p)) := by
  unfold unregisterValue
  cases r.unwrapTagged v expected with
  | error e => exact .inl ⟨e, rfl⟩
  | ok p =>
    refine .inr ⟨p, rfl, ?_⟩
    by_cases hNull : p.address = 0
    · exact .inl ⟨hNull, by simp [Pointer.isNull, hNull]⟩
    · exact .inr ⟨hNull, by simp [Pointer.isNull, hNull]⟩

theorem unregisterAnyOf_cases (r : Registry) (v : Pointer.Value) (tags : List Tag) :
    (∃ e, r.unregisterAnyOf v tags = (.error e, r)) ∨
      ∃ p, r.unwrapAnyOf v tags = .ok p ∧ r.unregisterAnyOf v tags = r.releasePointer p := by
  unfold unregisterAnyOf
  cases r.unwrapAnyOf v tags with
  | error e => exact .inl ⟨e, rfl⟩
  | ok p => exact .inr ⟨p, rfl, rfl⟩

theorem invalidateTagged_cases (r : Registry) (address : UInt64) (expected : Option Tag) :
    (∃ answer, r.invalidateTagged address expected = (answer, r)) ∨
      r.invalidateTagged address expected = (.ok true, r.remove address) := by
  unfold invalidateTagged
  cases r.record? address with
  | none => exact .inl ⟨_, rfl⟩
  | some record =>
    by_cases hFits : r.subtags.compatible record.tag expected = true
    · exact .inr (if_pos hFits)
    · exact .inl ⟨_, if_neg hFits⟩

theorem unregisterTagged_leads {address : UInt64} (expected : Option Tag)
    (hTarget : op.target? = some address) : r.Leads op (r.unregisterTagged address expected).2 := by
  rcases r.unregisterTagged_cases address expected with ⟨e, hFails⟩ | ⟨record, hRecord, -, hOk⟩
  · rw [hFails]
    exact .same
  · rw [hOk]
    exact .turn address hTarget (by rw [hRecord]; exact .release record)

theorem releasePointer_leads {p : Pointer} (hTarget : op.target? = some p.address) :
    r.Leads op (r.releasePointer p).2 := by
  rcases r.releasePointer_cases p with ⟨e, hFails⟩ | ⟨record, hRecord, -, hOk⟩
  · rw [hFails]
    exact .same
  · rw [hOk]
    exact .turn p.address hTarget (by rw [hRecord]; exact .release record)

theorem unregisterValue_leads {v : Pointer.Value} (expected : Option Tag)
    (hTarget : op.target? = v.address.toOption) :
    r.Leads op (r.unregisterValue v expected).2 := by
  rcases r.unregisterValue_cases v expected with ⟨e, hFails⟩ | ⟨p, hUnwrap, ⟨-, hNull⟩ | ⟨-, hOk⟩⟩
  · rw [hFails]
    exact .same
  · rw [hNull]
    exact .same
  · rw [hOk]
    exact releasePointer_leads (hTarget.trans (address_of_pointer (unwrapTagged_eq_ok hUnwrap)))

theorem unregisterAnyOf_leads {v : Pointer.Value} (tags : List Tag)
    (hTarget : op.target? = v.address.toOption) : r.Leads op (r.unregisterAnyOf v tags).2 := by
  rcases r.unregisterAnyOf_cases v tags with ⟨e, hFails⟩ | ⟨p, hUnwrap, hOk⟩
  · rw [hFails]
    exact .same
  · rw [hOk]
    exact releasePointer_leads (hTarget.trans (address_of_pointer (unwrapAnyOf_eq_ok hUnwrap)))

theorem remove_leads {address : UInt64} (hTarget : op.target? = some address) :
    r.Leads op (r.remove address) :=
  have hForget : Turns address (r.record? address) none := .forget _
  .turn address hTarget hForget

theorem invalidateTagged_leads {address : UInt64} (expected : Option Tag)
    (hTarget : op.target? = some address) : r.Leads op (r.invalidateTagged address expected).2 := by
  rcases r.invalidateTagged_cases address expected with ⟨answer, hStays⟩ | hGone
  · rw [hStays]
    exact .same
  · rw [hGone]
    exact remove_leads hTarget

/-! ### Casting -/

theorem retag_of_none {address : UInt64} (h : r.record? address = none) (tag : Option Tag) :
    r.retag address tag = r := by
  simp only [retag, h]

theorem retag_of_pinned {address : UInt64} {record : Record} (h : r.record? address = some record)
    (hPinned : record.mode = .pinned) (tag : Option Tag) : r.retag address tag = r := by
  simp only [retag, h, hPinned, Mode.isPinned, if_true]

theorem retag_of_free {address : UInt64} {record : Record} (h : r.record? address = some record)
    (hFree : record.mode ≠ .pinned) (tag : Option Tag) :
    r.retag address tag = r.leave address (some { record with tag }) := by
  have hNotPinned : record.mode.isPinned = false := by
    cases hMode : record.mode with
    | pinned => exact absurd hMode hFree
    | _ => rfl
  simp only [retag, h, hNotPinned, Bool.false_eq_true, if_false, leave]

theorem retag_cases (r : Registry) (address : UInt64) (tag : Option Tag) :
    r.retag address tag = r ∨
      ∃ record, r.record? address = some record ∧ record.mode ≠ .pinned ∧
        r.retag address tag = r.leave address (some { record with tag }) := by
  cases hRecord : r.record? address with
  | none => exact .inl (retag_of_none hRecord tag)
  | some record =>
    by_cases hPinned : record.mode = .pinned
    · exact .inl (retag_of_pinned hRecord hPinned tag)
    · exact .inr ⟨record, rfl, hPinned, retag_of_free hRecord hPinned tag⟩

theorem cast_cases (r : Registry) (v : Pointer.Value) (tag : Option Tag) :
    (∃ e, r.cast v tag = (.error e, r)) ∨
      ∃ p, v.pointer = .ok p ∧ r.castError? p tag = none ∧
        r.cast v tag = (.ok (.wrap p.address tag), r.retag p.address tag) := by
  unfold cast
  cases v.pointer with
  | error e => exact .inl ⟨e, rfl⟩
  | ok p =>
    cases hError : r.castError? p tag with
    | some e => exact .inl ⟨e, by simp only [hError]⟩
    | none => exact .inr ⟨p, rfl, hError, by simp only [hError]⟩

theorem retag_leads {address : UInt64} (tag : Option Tag) (hTarget : op.target? = some address) :
    r.Leads op (r.retag address tag) := by
  rcases r.retag_cases address tag with hSame | ⟨record, hRecord, hFree, hRetag⟩
  · rw [hSame]
    exact .same
  · rw [hRetag]
    exact .turn address hTarget (by rw [hRecord]; exact .retag record tag hFree)

theorem cast_leads {v : Pointer.Value} (tag : Option Tag)
    (hTarget : op.target? = v.address.toOption) : r.Leads op (r.cast v tag).2 := by
  rcases r.cast_cases v tag with ⟨e, hFails⟩ | ⟨p, hPointer, -, hOk⟩
  · rw [hFails]
    exact .same
  · rw [hOk]
    exact retag_leads tag (hTarget.trans (address_of_pointer hPointer))

/-! ### Any call -/

theorem step_leads (r : Registry) (op : Op) : r.Leads op (r.step op).2 := by
  cases op with
  | register address tag => exact registerAs_leads tag rfl (.inl rfl)
  | registerCounted address tag => exact registerAs_leads tag rfl (.inr (.inl rfl))
  | pin address => exact registerAs_leads none rfl (.inr (.inr rfl))
  | unregister address => exact unregisterTagged_leads none rfl
  | unregisterTagged address expected => exact unregisterTagged_leads expected rfl
  | unregisterValue value expected => exact unregisterValue_leads expected rfl
  | unregisterAnyOf value tags => exact unregisterAnyOf_leads tags rfl
  | invalidate address => exact remove_leads rfl
  | invalidateTagged address expected => exact invalidateTagged_leads expected rfl
  | cast value tag => exact cast_leads tag rfl
  | defineSubtag sub sup => exact .define sub sup
  | removeSubtag tag => exact .undefine tag
  | intern text => exact .intern text
  | clear => exact .clear rfl
  | _ => exact .same

/-! ### The record of an address -/

theorem record?_leave (r : Registry) (address other : UInt64) (after : Option Record) :
    (r.leave address after).record? other = if other = address then after else r.record? other := by
  cases after with
  | none => exact Records.find?_remove address other r.records
  | some record => exact Records.find?_put address other record r.records

theorem record?_leave_self (r : Registry) (address : UInt64) (after : Option Record) :
    (r.leave address after).record? address = after := by
  rw [record?_leave, if_pos rfl]

/-- A call that does not touch an address leaves its record as it is. -/
theorem step_record?_of_not_touches {address : UInt64} (h : ¬op.Touches address) :
    (r.step op).2.record? address = r.record? address := by
  obtain ⟨hClear, hTarget⟩ := not_or.mp h
  have hLeads := r.step_leads op
  generalize (r.step op).2 = after at hLeads
  cases hLeads with
  | same => rfl
  | turn other hOther =>
    have hNe : address ≠ other := fun e => hTarget (e ▸ hOther)
    rw [record?_leave, if_neg hNe]
  | define => rfl
  | undefine => rfl
  | intern => rfl
  | clear hOp => exact absurd hOp hClear

end ArenaRegistry.Registry
