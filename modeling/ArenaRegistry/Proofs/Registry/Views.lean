import ArenaRegistry.Proofs.Registry.Order
import ArenaRegistry.Proofs.Tag.Walks

/-! The views of a registration. Some calls decide whether a registered tag fits by `compatible` and
some by `relation`, some only look for a record, and some refuse null before they look. All of them
answer by the status of the address. -/

namespace ArenaRegistry.Registry

variable {r : Registry} {address : UInt64} {expected : Option Tag} {record : Record}
  {v : Pointer.Value} {p : Pointer}

/-- The agreement that is reported of a registration with a status. -/
def Agreement.ofStatus? : Status → Option Agreement
  | .missing => none
  | .wrongTag => some mismatch
  | .ok => some exact
  | .derived => some derived

/-- The calls that check an address under an expected tag answer by a status. -/
structure Answers (r : Registry) (address : UInt64) (expected : Option Tag) (s : Status) :
    Prop where
  verified : r.verifyTagged address expected = .ok s ↔ s.usable = true
  refused : s.usable = false →
    ∃ e, r.verifyTagged address expected = .error e ∧ e.status? = some s
  released : (r.unregisterTagged address expected).1 = .ok () ↔ s.usable = true
  release_missing :
    (r.unregisterTagged address expected).1 = .error (.unregistered address expected) ↔ s = .missing
  release_wrongTag : (∃ record ∈ r.record? address,
    (r.unregisterTagged address expected).1 = .error (.mismatch expected record.tag)) ↔ s = .wrongTag
  invalidated : (r.invalidateTagged address expected).1 = .ok true ↔ s.usable = true
  invalidate_missing : (r.invalidateTagged address expected).1 = .ok false ↔ s = .missing
  invalidate_wrongTag : (∃ record ∈ r.record? address,
    (r.invalidateTagged address expected).1 = .error (.mismatch expected record.tag)) ↔ s = .wrongTag

/-- The calls that look a value up answer by a status. -/
structure AnswersValue (r : Registry) (v : Pointer.Value) (address : UInt64) (s : Status) :
    Prop where
  matched : (r.info v).map (fun i => i.registration.map Prod.snd) = .ok (Agreement.ofStatus? s)
  dissected : ∀ other, (r.dissect v other).map Dissection.status = .ok s
  verified : (r.verifyValue v none).isOk = true ↔ address ≠ 0 ∧ s.usable = true

/-- The calls that tell whether an address is registered tell the same. -/
structure Presents (r : Registry) (address : UInt64) (present : Bool) : Prop where
  recorded : (r.record? address).isSome = present
  registered : r.registered address = present
  verified : (r.verify address).isOk = present
  listed : (∃ p ∈ r.enumerate none, p.address = address) ↔ present = true
  status : ∀ expected, r.status address expected ≠ .missing ↔ present = true

/-! ### The status of an address -/

theorem status_of_none (h : r.record? address = none) : r.status address expected = .missing := by
  simp only [status, h]

theorem status_of_fits (h : r.record? address = some record)
    (hFits : r.subtags.compatible record.tag expected = true) :
    r.status address expected = .ok ∨ r.status address expected = .derived := by
  simp only [status, h]
  rcases (Subtags.compatible_iff _ _ _).mp hFits with hEqual | hCastable
  · exact .inl (by rw [hEqual])
  · exact .inr (by rw [hCastable])

theorem status_of_not_fits (h : r.record? address = some record)
    (hFits : r.subtags.compatible record.tag expected = false) :
    r.status address expected = .wrongTag := by
  have hRelation : ¬(r.subtags.relation record.tag expected = .equal ∨
      r.subtags.relation record.tag expected = .implicitlyCastable) := by
    rw [← Subtags.compatible_iff, hFits]
    decide
  simp only [status, h]
  split
  next hEqual => exact absurd (.inl hEqual) hRelation
  next hCastable => exact absurd (.inr hCastable) hRelation
  next => rfl

theorem status_ne_missing_iff (r : Registry) (address : UInt64) (expected : Option Tag) :
    r.status address expected ≠ .missing ↔ (r.record? address).isSome = true := by
  cases hRecord : r.record? address with
  | none => simp [status_of_none hRecord]
  | some record =>
    cases hFits : r.subtags.compatible record.tag expected with
    | false => simp [status_of_not_fits hRecord hFits]
    | true => rcases status_of_fits hRecord hFits with hOk | hDerived <;> simp [*]

/-! ### Checks of an address -/

theorem answers_of_none (h : r.record? address = none) : r.Answers address expected .missing := by
  have hVerify : r.verifyTagged address expected = .error (.unregistered address expected) := by
    simp only [verifyTagged, h]
  have hRelease : (r.unregisterTagged address expected).1 =
      .error (.unregistered address expected) := by simp only [unregisterTagged, h]
  have hInvalidate : (r.invalidateTagged address expected).1 = .ok false := by
    simp only [invalidateTagged, h]
  constructor
  case refused => exact fun _ => ⟨_, hVerify, rfl⟩
  all_goals simp [h, hVerify, hRelease, hInvalidate, Status.usable]

theorem answers_of_fits {s : Status} (h : r.record? address = some record)
    (hFits : r.subtags.compatible record.tag expected = true)
    (hStatus : r.status address expected = s) (hUsable : s.usable = true) :
    r.Answers address expected s := by
  have hVerify : r.verifyTagged address expected = .ok s := by
    simp only [verifyTagged, h, hFits, if_true, hStatus]
  have hRelease : (r.unregisterTagged address expected).1 = .ok () := by
    simp only [unregisterTagged, h, hFits, if_true]
  have hInvalidate : (r.invalidateTagged address expected).1 = .ok true := by
    simp only [invalidateTagged, h, hFits, if_true]
  have hNotMissing : s ≠ .missing := by rintro rfl; cases hUsable
  have hNotWrong : s ≠ .wrongTag := by rintro rfl; cases hUsable
  constructor <;> simp [hVerify, hRelease, hInvalidate, hUsable, hNotMissing, hNotWrong]

theorem answers_of_not_fits (h : r.record? address = some record)
    (hFits : r.subtags.compatible record.tag expected = false) :
    r.Answers address expected .wrongTag := by
  have hVerify : r.verifyTagged address expected = .error (.mismatch expected record.tag) := by
    simp [verifyTagged, h, hFits]
  have hRelease : (r.unregisterTagged address expected).1 =
      .error (.mismatch expected record.tag) := by simp [unregisterTagged, h, hFits]
  have hInvalidate : (r.invalidateTagged address expected).1 =
      .error (.mismatch expected record.tag) := by simp [invalidateTagged, h, hFits]
  constructor
  case refused => exact fun _ => ⟨_, hVerify, rfl⟩
  case release_wrongTag => simp [h, hRelease]
  case invalidate_wrongTag => simp [h, hInvalidate]
  all_goals
    simp [hVerify, hRelease, hInvalidate, Status.usable, PointerError.mismatch,
      PointerError.unregistered]

theorem answers_status (r : Registry) (address : UInt64) (expected : Option Tag) :
    r.Answers address expected (r.status address expected) := by
  cases hRecord : r.record? address with
  | none =>
    rw [status_of_none hRecord]
    exact answers_of_none hRecord
  | some record =>
    cases hFits : r.subtags.compatible record.tag expected with
    | false =>
      rw [status_of_not_fits hRecord hFits]
      exact answers_of_not_fits hRecord hFits
    | true =>
      apply answers_of_fits hRecord hFits rfl
      rcases status_of_fits hRecord hFits with hOk | hDerived
      · rw [hOk]; rfl
      · rw [hDerived]; rfl

/-! ### Values -/

theorem agreement_ofRelation (h : r.record? address = some record) :
    Agreement.ofStatus? (r.status address expected) =
      some (.ofRelation (r.subtags.relation record.tag expected)) := by
  simp only [status, h]
  cases r.subtags.relation record.tag expected <;> rfl

theorem info_of_pointer (h : v.pointer = .ok p) :
    (r.info v).map (fun i => i.registration.map Prod.snd) =
      .ok (Agreement.ofStatus? (r.status p.address p.tag)) := by
  simp only [info, h, bind, Except.bind, pure, Except.pure, Except.map]
  cases hRecord : r.record? p.address with
  | none => rw [status_of_none hRecord]; rfl
  | some record => rw [agreement_ofRelation hRecord]; rfl

theorem dissect_of_pointer (h : v.pointer = .ok p) (other : Option Tag) :
    (r.dissect v other).map Dissection.status = .ok (r.status p.address p.tag) := by
  simp only [dissect, h]
  rfl

theorem verifyTagged_isOk (r : Registry) (address : UInt64) (expected : Option Tag) :
    (r.verifyTagged address expected).isOk = (r.status address expected).usable := by
  have hAnswers := r.answers_status address expected
  cases hUsable : (r.status address expected).usable with
  | true =>
    rw [hAnswers.verified.mpr hUsable]
    rfl
  | false =>
    obtain ⟨e, hError, -⟩ := hAnswers.refused hUsable
    rw [hError]
    rfl

theorem verifyValue_isOk (h : v.pointer = .ok p) :
    (r.verifyValue v none).isOk = true ↔
      p.address ≠ 0 ∧ (r.status p.address p.tag).usable = true := by
  have hUnwrap : r.unwrapTagged v none = .ok p := by
    simp only [unwrapTagged, h]
    rfl
  simp only [verifyValue, hUnwrap, bind, Except.bind, ← verifyTagged_isOk]
  by_cases hNull : p.address = 0
  · simp [Pointer.isNull, hNull, Except.isOk, Except.toBool]
  · cases r.verifyTagged p.address p.tag with
    | error e => simp [Pointer.isNull, hNull, Except.isOk, Except.toBool]
    | ok s => simp [Pointer.isNull, hNull, Except.isOk, Except.toBool, pure, Except.pure]

theorem answersValue_of_pointer (h : v.pointer = .ok p) :
    r.AnswersValue v p.address (r.status p.address p.tag) :=
  ⟨info_of_pointer h, dissect_of_pointer h, verifyValue_isOk h⟩

/-! ### Registered addresses -/

theorem mem_enumerate_none (r : Registry) (address : UInt64) :
    (∃ p ∈ r.enumerate none, p.address = address) ↔ (r.record? address).isSome = true := by
  rw [record?_isSome, ← enumerate_addresses, List.mem_map]

theorem WellFormed.presents (h : r.WellFormed) (address : UInt64) :
    r.Presents address (r.record? address).isSome := by
  have hNull : (r.record? 0).isSome = false := by rw [h.record?_null]; rfl
  refine ⟨rfl, h.registered_eq address, ?_, r.mem_enumerate_none address,
    r.status_ne_missing_iff address⟩
  unfold verify
  by_cases hAddress : address = 0
  · rw [if_pos hAddress, hAddress, hNull]; rfl
  · rw [if_neg hAddress]
    cases (r.record? address).isSome <;> rfl

/-! ### Runs -/

/-- Whatever calls were made on a registry, the status of an address under an expected tag decides
the answers of all calls that check the address under that tag, of those that look up a value of that
address and tag, and, whatever the tag, of those that ask whether the address is registered. -/
theorem views_agree {settings : Settings} (hCreate : create settings = .ok r) (past : List Op)
    (address : UInt64) (expected : Option Tag) :
    (r.run past).Answers address expected ((r.run past).status address expected) ∧
      (∀ (v : Pointer.Value) (p : Pointer), v.pointer = .ok p → p.address = address →
        p.tag = expected →
        (r.run past).AnswersValue v address ((r.run past).status address expected)) ∧
      (r.run past).Presents address ((r.run past).record? address).isSome := by
  have hPast : (r.run past).WellFormed := (create_eq_ok hCreate ▸ empty_wellFormed settings).run past
  refine ⟨answers_status _ address expected, ?_, hPast.presents address⟩
  rintro v p hPointer rfl rfl
  exact answersValue_of_pointer hPointer

/-- With a cycle of definitions and a walk too short to go around it, an address is derived under one
tag, of the wrong kind under another, and null is missing. -/
theorem views_agree_cycle :
    let past : List Op := [.defineSubtag ⟨"a"⟩ (some ⟨"b"⟩), .defineSubtag ⟨"b"⟩ (some ⟨"c"⟩),
      .defineSubtag ⟨"c"⟩ (some ⟨"a"⟩), .register 16 (some ⟨"a"⟩)]
    let r := (empty ⟨1, .reject, false⟩).run past
    r.status 16 (some ⟨"b"⟩) = .derived ∧ r.status 16 (some ⟨"c"⟩) = .wrongTag ∧
      r.Answers 16 (some ⟨"b"⟩) .derived ∧ r.Answers 16 (some ⟨"c"⟩) .wrongTag ∧
      r.AnswersValue (.text "0x10^c") 16 .wrongTag ∧ r.Presents 16 true ∧ r.Presents 0 false := by
  intro past r
  have hCreate : create ⟨1, .reject, false⟩ = .ok (empty ⟨1, .reject, false⟩) := rfl
  have hDerived : r.status 16 (some ⟨"b"⟩) = .derived := by decide +kernel
  have hWrong : r.status 16 (some ⟨"c"⟩) = .wrongTag := by decide +kernel
  have hText : (Pointer.Value.text "0x10^c").pointer = .ok (.wrap 16 (some ⟨"c"⟩)) := rfl
  obtain ⟨hAnswersB, -, hPresent⟩ := views_agree hCreate past 16 (some ⟨"b"⟩)
  obtain ⟨hAnswersC, hValues, -⟩ := views_agree hCreate past 16 (some ⟨"c"⟩)
  obtain ⟨-, -, hNull⟩ := views_agree hCreate past 0 none
  exact ⟨hDerived, hWrong, hDerived ▸ hAnswersB, hWrong ▸ hAnswersC,
    hWrong ▸ hValues _ _ hText rfl rfl, hPresent, hNull⟩

end ArenaRegistry.Registry
