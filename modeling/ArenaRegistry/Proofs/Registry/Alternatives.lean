import ArenaRegistry.Proofs.Registry.WellFormed

/-! Lists of tags. A check against a list succeeds just when it does against one of the tags, and
then with the same pointer, so neither order nor repetition matters. A release under a list agrees
with the releases under its tags, but for null: a release under one tag leaves null alone, and a
release under a list looks for its registration, which null never has. -/

namespace ArenaRegistry.Registry

variable {r : Registry} {v : Pointer.Value} {p : Pointer} {tag : Tag} {tags tags' : List Tag}
  {expected : Option Tag} {address : UInt64} {e : PointerError}

/-- A release under a list of tags succeeds just when one under some tag of the list does, and then
does the same. -/
structure Alternates (r : Registry) (v : Pointer.Value) (tags : List Tag) : Prop where
  succeeds : (r.unregisterAnyOf v tags).1.isOk = true ↔
    ∃ tag ∈ tags, (r.unregisterValue v (some tag)).1.isOk = true
  same : ∀ tag ∈ tags, (r.unregisterValue v (some tag)).1.isOk = true →
    r.unregisterAnyOf v tags = r.unregisterValue v (some tag)

/-- A value that is null passes the check of its tag against one of the tags. -/
def PassesNull (r : Registry) (v : Pointer.Value) (tags : List Tag) : Prop :=
  ∃ p, p.isNull = true ∧ r.unwrapAnyOf v tags = .ok p

/-! ### Unwrapping -/

theorem pointer_eq_error (h : v.pointer = .error e) : ∃ s, v = .text s ∧ e = .format s := by
  cases v with
  | built p => cases h
  | text s =>
    refine ⟨s, rfl, ?_⟩
    simp only [Pointer.Value.pointer, Pointer.parse] at h
    split at h
    · cases h
    · cases h; rfl

theorem unwrapTagged_of_pointer (h : v.pointer = .ok p) (expected : Option Tag) :
    r.unwrapTagged v expected = r.checkTag p expected := by
  simp only [unwrapTagged, h]
  rfl

theorem unwrapAnyOf_of_pointer (h : v.pointer = .ok p) (tags : List Tag) :
    r.unwrapAnyOf v tags =
      if r.passesAny p tags then .ok p else .error (.mismatch tags.getLast? p.tag) := by
  simp only [unwrapAnyOf, h]
  rfl

theorem passesAny_iff :
    r.passesAny p tags = true ↔ ∃ tag ∈ tags, r.checkTag p (some tag) = .ok p := by
  rw [passesAny, List.any_eq_true]
  refine exists_congr fun tag => and_congr_right fun _ => ?_
  cases hCheck : r.checkTag p (some tag) with
  | error e => simp [Except.isOk, Except.toBool]
  | ok q => simp [Except.isOk, Except.toBool, checkTag_eq_ok hCheck]

theorem unwrapAnyOf_eq_ok_iff : r.unwrapAnyOf v tags = .ok p ↔
    ∃ tag ∈ tags, r.unwrapTagged v (some tag) = .ok p := by
  constructor
  · intro h
    have hPointer := unwrapAnyOf_eq_ok h
    rw [unwrapAnyOf_of_pointer hPointer] at h
    split at h
    next hPasses =>
      obtain ⟨tag, hMem, hCheck⟩ := passesAny_iff.mp hPasses
      exact ⟨tag, hMem, (unwrapTagged_of_pointer hPointer _).trans hCheck⟩
    next => cases h
  · rintro ⟨tag, hMem, h⟩
    have hPointer := unwrapTagged_eq_ok h
    rw [unwrapTagged_of_pointer hPointer] at h
    rw [unwrapAnyOf_of_pointer hPointer, if_pos (passesAny_iff.mpr ⟨tag, hMem, h⟩)]

theorem unwrapAnyOf_eq_error (hPointer : v.pointer = .ok p)
    (h : r.unwrapAnyOf v tags = .error e) : e = .mismatch tags.getLast? p.tag := by
  rw [unwrapAnyOf_of_pointer hPointer] at h
  split at h
  · cases h
  · cases h; rfl

/-! ### Verifying -/

theorem verifyAnyOf_eq_ok : r.verifyAnyOf v tags = .ok p ↔
    r.unwrapAnyOf v tags = .ok p ∧ ∃ s, r.verifyTagged p.address p.tag = .ok s := by
  simp only [verifyAnyOf, bind_eq_ok, pure, Except.pure, Except.ok.injEq]
  constructor
  · rintro ⟨q, hUnwrap, s, hVerify, rfl⟩
    exact ⟨hUnwrap, s, hVerify⟩
  · rintro ⟨hUnwrap, s, hVerify⟩
    exact ⟨p, hUnwrap, s, hVerify, rfl⟩

theorem verifyValue_eq_ok : r.verifyValue v expected = .ok p ↔
    r.unwrapTagged v expected = .ok p ∧ p.isNull = false ∧
      ∃ s, r.verifyTagged p.address p.tag = .ok s := by
  simp only [verifyValue, bind_eq_ok]
  constructor
  · rintro ⟨q, hUnwrap, hRest⟩
    split at hRest
    · cases hRest
    next hNull =>
      obtain ⟨s, hVerify, hSame⟩ := bind_eq_ok.mp hRest
      cases hSame
      exact ⟨hUnwrap, by simpa using hNull, s, hVerify⟩
  · rintro ⟨hUnwrap, hNull, s, hVerify⟩
    refine ⟨p, hUnwrap, ?_⟩
    rw [if_neg (by simp [hNull])]
    exact bind_eq_ok.mpr ⟨s, hVerify, rfl⟩

theorem record?_of_verifyTagged {s : Status} (h : r.verifyTagged address expected = .ok s) :
    ∃ record, r.record? address = some record := by
  unfold verifyTagged at h
  cases hRecord : r.record? address with
  | none => simp [hRecord] at h
  | some record => exact ⟨record, rfl⟩

/-- Only a check of a single value asks for null, but null is never registered either. -/
theorem verifyAnyOf_eq_ok_iff (h : r.WellFormed) : r.verifyAnyOf v tags = .ok p ↔
    ∃ tag ∈ tags, r.verifyValue v (some tag) = .ok p := by
  simp only [verifyAnyOf_eq_ok, verifyValue_eq_ok, unwrapAnyOf_eq_ok_iff]
  constructor
  · rintro ⟨⟨tag, hMem, hUnwrap⟩, s, hVerify⟩
    obtain ⟨record, hRecord⟩ := record?_of_verifyTagged hVerify
    have hNull : p.isNull = false := by simpa [Pointer.isNull] using (h.record? hRecord).1
    exact ⟨tag, hMem, hUnwrap, hNull, s, hVerify⟩
  · rintro ⟨tag, hMem, hUnwrap, -, s, hVerify⟩
    exact ⟨⟨tag, hMem, hUnwrap⟩, s, hVerify⟩

/-- A check against a list of tags is the disjunction of the checks against its tags, and depends on
nothing but which tags there are. If unwrapping fails, the text of the value is none of a pointer, or
the error names the last tag and that of the value. -/
theorem anyOf_is_disjunction {settings : Settings} (hCreate : create settings = .ok r)
    (past : List Op) (v : Pointer.Value) (tags : List Tag) :
    (∀ p, (r.run past).unwrapAnyOf v tags = .ok p ↔
        ∃ tag ∈ tags, (r.run past).unwrapTagged v (some tag) = .ok p) ∧
      (∀ p, (r.run past).verifyAnyOf v tags = .ok p ↔
        ∃ tag ∈ tags, (r.run past).verifyValue v (some tag) = .ok p) ∧
      (∀ tags' : List Tag, (∀ tag, tag ∈ tags' ↔ tag ∈ tags) → ∀ p,
        ((r.run past).unwrapAnyOf v tags' = .ok p ↔ (r.run past).unwrapAnyOf v tags = .ok p) ∧
          ((r.run past).verifyAnyOf v tags' = .ok p ↔ (r.run past).verifyAnyOf v tags = .ok p)) ∧
      (∀ e, v.pointer = .error e →
        (∃ s, v = .text s ∧ e = .format s) ∧ (r.run past).unwrapAnyOf v tags = .error e) ∧
      ∀ p e, v.pointer = .ok p → (r.run past).unwrapAnyOf v tags = .error e →
        e = .typeMismatch (Tag.text? tags.getLast?) (Tag.text? p.tag) := by
  have hPast : (r.run past).WellFormed := run_wellFormed_of_create hCreate past
  refine ⟨fun _ => unwrapAnyOf_eq_ok_iff, fun _ => verifyAnyOf_eq_ok_iff hPast, ?_, ?_, ?_⟩
  · intro tags' hSame p
    simp only [unwrapAnyOf_eq_ok_iff, verifyAnyOf_eq_ok_iff hPast, hSame, and_self]
  · intro e hError
    refine ⟨pointer_eq_error hError, ?_⟩
    simp only [unwrapAnyOf, hError]
    rfl
  · exact fun _ _ => unwrapAnyOf_eq_error

/-- A tag that fits stands between two that do not, null fits any tag and is not registered, and a
text that is no pointer fits none. -/
theorem anyOf_is_disjunction_mixed :
    let r := empty ⟨10, .reject, true⟩
    let past : List Op := [.defineSubtag ⟨"Dog"⟩ (some ⟨"Pet"⟩), .register 16 (some ⟨"Dog"⟩)]
    let tags : List Tag := [⟨"Cat"⟩, ⟨"Pet"⟩, ⟨"Car"⟩]
    create ⟨10, .reject, true⟩ = .ok r ∧
      (r.run past).unwrapAnyOf (.text "NULL") tags = .ok .null ∧
      (r.run past).verifyAnyOf (.text "NULL") tags ≠ .ok .null ∧
      (r.run past).verifyAnyOf (.text "0x10^Dog") tags = .ok (.wrap 16 (some ⟨"Dog"⟩)) ∧
      (r.run past).verifyAnyOf (.text "0x10^Dog") (tags.reverse ++ tags) =
        .ok (.wrap 16 (some ⟨"Dog"⟩)) ∧
      (r.run past).unwrapAnyOf (.text "0x") tags = .error (.format "0x") ∧
      ∀ e, (r.run past).unwrapAnyOf (.text "0x10^Rat") tags = .error e →
        e = .typeMismatch "Car" "Rat" := by
  intro r past tags
  have hCreate : create ⟨10, .reject, true⟩ = .ok r := rfl
  have hDog : (r.run past).verifyValue (.text "0x10^Dog") (some ⟨"Pet"⟩) =
      .ok (.wrap 16 (some ⟨"Dog"⟩)) := rfl
  obtain ⟨hNull, hNever, -⟩ := anyOf_is_disjunction hCreate past (.text "NULL") tags
  obtain ⟨-, hVerify, hOrder, -⟩ := anyOf_is_disjunction hCreate past (.text "0x10^Dog") tags
  obtain ⟨-, -, -, hUnread, -⟩ := anyOf_is_disjunction hCreate past (.text "0x") tags
  obtain ⟨-, -, -, -, hUnfit⟩ := anyOf_is_disjunction hCreate past (.text "0x10^Rat") tags
  have hFound := (hVerify _).mpr ⟨⟨"Pet"⟩, by decide, hDog⟩
  refine ⟨hCreate, (hNull _).mpr ⟨⟨"Pet"⟩, by decide, rfl⟩, ?_, hFound, ?_,
    (hUnread _ rfl).2, fun e => hUnfit (.wrap 16 (some ⟨"Rat"⟩)) e rfl⟩
  · rw [ne_eq, hNever]
    rintro ⟨tag, -, hOk⟩
    cases (verifyValue_eq_ok.mp hOk).2.1
  · exact (hOrder _ (by simp) _).2.mpr hFound

/-! ### Releasing -/

theorem unregisterValue_of_unwrap (h : r.unwrapTagged v expected = .ok p)
    (hNonnull : p.isNull = false) : r.unregisterValue v expected = r.releasePointer p := by
  simp only [unregisterValue, h, hNonnull, Bool.false_eq_true, if_false]

theorem unregisterAnyOf_of_unwrap (h : r.unwrapAnyOf v tags = .ok p) :
    r.unregisterAnyOf v tags = r.releasePointer p := by
  simp only [unregisterAnyOf, h]

theorem unwrap_of_unregisterValue (h : (r.unregisterValue v expected).1.isOk = true) :
    ∃ p, r.unwrapTagged v expected = .ok p := by
  rcases r.unregisterValue_cases v expected with ⟨e, hFails⟩ | ⟨p, hUnwrap, -⟩
  · rw [hFails] at h
    cases h
  · exact ⟨p, hUnwrap⟩

theorem unwrap_of_unregisterAnyOf (h : (r.unregisterAnyOf v tags).1.isOk = true) :
    ∃ p, r.unwrapAnyOf v tags = .ok p := by
  rcases r.unregisterAnyOf_cases v tags with ⟨e, hFails⟩ | ⟨p, hUnwrap, -⟩
  · rw [hFails] at h
    cases h
  · exact ⟨p, hUnwrap⟩

/-- Apart from null, both kinds of release come down to that of the pointer. -/
theorem alternates_of_not_passesNull (h : ¬r.PassesNull v tags) : r.Alternates v tags := by
  have hNonnull {p : Pointer} (hUnwrap : r.unwrapAnyOf v tags = .ok p) : p.isNull = false := by
    rw [← Bool.not_eq_true]
    exact fun hNull => h ⟨p, hNull, hUnwrap⟩
  have hSame (tag : Tag) (hMem : tag ∈ tags)
      (hOk : (r.unregisterValue v (some tag)).1.isOk = true) :
      r.unregisterAnyOf v tags = r.unregisterValue v (some tag) := by
    obtain ⟨p, hUnwrap⟩ := unwrap_of_unregisterValue hOk
    have hAny : r.unwrapAnyOf v tags = .ok p := unwrapAnyOf_eq_ok_iff.mpr ⟨tag, hMem, hUnwrap⟩
    rw [unregisterAnyOf_of_unwrap hAny, unregisterValue_of_unwrap hUnwrap (hNonnull hAny)]
  refine ⟨⟨fun hOk => ?_, ?_⟩, hSame⟩
  · obtain ⟨p, hAny⟩ := unwrap_of_unregisterAnyOf hOk
    obtain ⟨tag, hMem, hUnwrap⟩ := unwrapAnyOf_eq_ok_iff.mp hAny
    refine ⟨tag, hMem, ?_⟩
    rw [unregisterValue_of_unwrap hUnwrap (hNonnull hAny), ← unregisterAnyOf_of_unwrap hAny]
    exact hOk
  · rintro ⟨tag, hMem, hOk⟩
    rw [hSame tag hMem hOk]
    exact hOk

theorem unregisterValue_of_null (h : r.unwrapTagged v expected = .ok p) (hNull : p.isNull = true) :
    r.unregisterValue v expected = (.ok 0, r) := by
  have hZero : p.address = 0 := by simpa [Pointer.isNull] using hNull
  simp only [unregisterValue, h, hNull, if_true, hZero]

theorem unregisterAnyOf_of_null (hFormed : r.WellFormed) (h : r.unwrapAnyOf v tags = .ok p)
    (hNull : p.isNull = true) :
    r.unregisterAnyOf v tags = (.error (.unregistered 0 p.tag), r) := by
  have hZero : p.address = 0 := by simpa [Pointer.isNull] using hNull
  rw [unregisterAnyOf_of_unwrap h]
  simp only [releasePointer, unregisterTagged, hZero, hFormed.record?_null]

/-- Releases under a list of tags agree with those under its tags, unless the value is null and fits
one of the tags. Then a release under such a tag leaves null alone, and the one under the list fails,
since null is not registered. -/
theorem unregisterAnyOf_alternates {settings : Settings} (hCreate : create settings = .ok r)
    (past : List Op) (v : Pointer.Value) (tags : List Tag) :
    ((r.run past).Alternates v tags ↔ ¬(r.run past).PassesNull v tags) ∧
      ∀ p, p.isNull = true → (r.run past).unwrapAnyOf v tags = .ok p →
        (r.run past).unregisterAnyOf v tags = (.error (.unregistered 0 p.tag), r.run past) ∧
          ∃ tag ∈ tags, (r.run past).unregisterValue v (some tag) = (.ok 0, r.run past) := by
  have hPast : (r.run past).WellFormed := run_wellFormed_of_create hCreate past
  have hParts (p : Pointer) (hNull : p.isNull = true)
      (hUnwrap : (r.run past).unwrapAnyOf v tags = .ok p) :
      (r.run past).unregisterAnyOf v tags = (.error (.unregistered 0 p.tag), r.run past) ∧
        ∃ tag ∈ tags, (r.run past).unregisterValue v (some tag) = (.ok 0, r.run past) := by
    obtain ⟨tag, hMem, hFits⟩ := unwrapAnyOf_eq_ok_iff.mp hUnwrap
    exact ⟨unregisterAnyOf_of_null hPast hUnwrap hNull, tag, hMem,
      unregisterValue_of_null hFits hNull⟩
  refine ⟨⟨?_, alternates_of_not_passesNull⟩, hParts⟩
  rintro hAlternates ⟨p, hNull, hUnwrap⟩
  obtain ⟨hFails, tag, hMem, hLeaves⟩ := hParts p hNull hUnwrap
  have hOk := hAlternates.succeeds.mpr ⟨tag, hMem, by rw [hLeaves]; rfl⟩
  rw [hFails] at hOk
  cases hOk

/-- A counted address under a derived tag is released alike, a typed null is not. -/
theorem unregisterAnyOf_alternates_derived :
    let r := empty .standard
    let past : List Op := [.defineSubtag ⟨"Dog"⟩ (some ⟨"Pet"⟩),
      .registerCounted 16 (some ⟨"Dog"⟩), .registerCounted 16 (some ⟨"Dog"⟩)]
    let tags : List Tag := [⟨"Car"⟩, ⟨"Pet"⟩, ⟨"Pet"⟩]
    create .standard = .ok r ∧
      (r.run past).Alternates (.text "0x10^Dog") tags ∧
      ((r.run past).unregisterAnyOf (.text "0x10^Dog") tags).2.record? 16 =
        some ⟨some ⟨"Dog"⟩, .counted 1⟩ ∧
      ¬(r.run past).Alternates (.text "0x0^Dog") tags := by
  intro r past tags
  have hCreate : create .standard = .ok r := rfl
  obtain ⟨hAgrees, -⟩ := unregisterAnyOf_alternates hCreate past (.text "0x10^Dog") tags
  obtain ⟨hDiffers, -⟩ := unregisterAnyOf_alternates hCreate past (.text "0x0^Dog") tags
  refine ⟨hCreate, hAgrees.mpr ?_, by decide +kernel, fun h => hDiffers.mp h ?_⟩
  · rintro ⟨p, hNull, hUnwrap⟩
    have hPointer : p = .wrap 16 (some ⟨"Dog"⟩) := by
      have hRead : (Pointer.Value.text "0x10^Dog").pointer = .ok (.wrap 16 (some ⟨"Dog"⟩)) := rfl
      exact Except.ok.inj ((unwrapAnyOf_eq_ok hUnwrap).symm.trans hRead)
    rw [hPointer] at hNull
    cases hNull
  · exact ⟨.wrap 0 (some ⟨"Dog"⟩), rfl, rfl⟩

/-- Null is released under one tag without any effect, and under a list of that tag it is reported as
not registered. -/
theorem not_alternates_null :
    let r := empty .standard
    create .standard = .ok r ∧
      r.unregisterValue (.text "NULL") (some ⟨"Dog"⟩) = (.ok 0, r) ∧
      r.unregisterAnyOf (.text "NULL") [⟨"Dog"⟩] =
        (.error (.notRegistered "0x0000000000000000^"), r) ∧
      ¬r.Alternates (.text "NULL") [⟨"Dog"⟩] := by
  intro r
  have hLeaves : r.unregisterValue (.text "NULL") (some ⟨"Dog"⟩) = (.ok 0, r) := rfl
  have hFails : r.unregisterAnyOf (.text "NULL") [⟨"Dog"⟩] =
      (.error (.notRegistered "0x0000000000000000^"), r) := rfl
  refine ⟨rfl, hLeaves, hFails, fun h => ?_⟩
  have hOk := h.succeeds.mpr ⟨⟨"Dog"⟩, by decide, by rw [hLeaves]; rfl⟩
  rw [hFails] at hOk
  cases hOk

end ArenaRegistry.Registry
