import ArenaRegistry.Proofs.Registry.Turn

/-! Calls about one address. What such a call answers and what becomes of the record depend on that
record, the definitions and the settings alone, and no other record changes or moves. Calls about
different addresses may therefore be made in either order. -/

namespace ArenaRegistry.Registry

/-- The address that a call is about, if it is about the registration of one. -/
def Op.subject? : Op → Option UInt64
  | .register address _ | .registerCounted address _ | .pin address | .unregister address
  | .unregisterTagged address _ | .invalidate address | .invalidateTagged address _
  | .registered address | .verify address | .verifyTagged address _ | .status address _
  | .record address => some address
  | .unregisterValue value _ | .unregisterAnyOf value _ | .cast value _ | .verifyValue value _
  | .verifyAnyOf value _ | .dissect value _ | .info value => value.address.toOption
  | _ => none

/-- Two registries are the same as far as one address is concerned. -/
structure AgreesAt (address : UInt64) (r r' : Registry) : Prop where
  record : r'.record? address = r.record? address
  subtags : r'.subtags = r.subtags
  settings : r'.settings = r.settings

/-- What a call about one address does to a registry. -/
inductive Change
  | keep
  /-- The record of the address is replaced by what is left of it. -/
  | leave (after : Option Record)

def Change.apply (change : Change) (address : UInt64) (r : Registry) : Registry :=
  match change with
  | .keep => r
  | .leave after => r.leave address after

/-- A call answers alike and makes one and the same change in all registries that agree at an
address. -/
def Local {α : Type} (address : UInt64) (f : Registry → α × Registry) : Prop :=
  ∀ r, ∃ answer, ∃ change : Change,
    ∀ r', AgreesAt address r r' → f r' = (answer, change.apply address r')

variable {r r' : Registry} {address other : UInt64} {op : Op} {v : Pointer.Value} {α β : Type}

theorem AgreesAt.refl (address : UInt64) (r : Registry) : AgreesAt address r r := ⟨rfl, rfl, rfl⟩

/-! ### Changes -/

theorem Records.filter_put (address : UInt64) (record : Record) (records : Records) :
    (put address record records).filter (·.1 ≠ address) = records.filter (·.1 ≠ address) := by
  induction records with
  | nil => simp [put]
  | cons entry records ih =>
    unfold put
    split
    next hKey => simp [hKey]
    next hKey => rw [List.filter_cons, List.filter_cons, ih]

/-- What a change leaves alone: all other records, in their order, the definitions, the interned
texts and the settings. -/
structure Spares (address : UInt64) (r r' : Registry) : Prop where
  order : r'.records.filter (·.1 ≠ address) = r.records.filter (·.1 ≠ address)
  record : ∀ other, other ≠ address → r'.record? other = r.record? other
  subtags : r'.subtags = r.subtags
  atoms : r'.atoms = r.atoms
  settings : r'.settings = r.settings

theorem spares_leave (address : UInt64) (after : Option Record) (r : Registry) :
    Spares address r (r.leave address after) := by
  have hRecord (other : UInt64) (hNe : other ≠ address) :
      (r.leave address after).record? other = r.record? other := by
    rw [record?_leave, if_neg hNe]
  cases after with
  | none => exact ⟨by simp [leave, remove, Records.remove], hRecord, rfl, rfl, rfl⟩
  | some record => exact ⟨Records.filter_put address record r.records, hRecord, rfl, rfl, rfl⟩

theorem Change.spares (change : Change) (address : UInt64) (r : Registry) :
    Spares address r (change.apply address r) := by
  cases change with
  | keep => exact ⟨rfl, fun _ _ => rfl, rfl, rfl, rfl⟩
  | leave after => exact spares_leave address after r

theorem Change.record?_apply (change : Change) (h : AgreesAt address r r') :
    (change.apply address r').record? address = (change.apply address r).record? address := by
  cases change with
  | keep => exact h.record
  | leave after =>
    simp only [Change.apply, record?_leave_self]

theorem Spares.agreesAt (h : Spares address r r') (hNe : other ≠ address) : AgreesAt other r r' :=
  ⟨h.record other hNe, h.subtags, h.settings⟩

/-! ### Local calls -/

theorem local_same {f : Registry → α} (h : ∀ r r', AgreesAt address r r' → f r' = f r) :
    Local address fun r => (f r, r) := by
  intro r
  refine ⟨f r, .keep, fun r' hAgrees => ?_⟩
  simp only [h r r' hAgrees, Change.apply]

theorem Local.map {f : Registry → α × Registry} (h : Local address f) (g : α → β) :
    Local address fun r => (f r).map g id := by
  intro r
  obtain ⟨answer, change, hChange⟩ := h r
  refine ⟨g answer, change, fun r' hAgrees => ?_⟩
  simp only [hChange r' hAgrees]
  rfl

theorem AgreesAt.verdict (h : AgreesAt address r r') (tag : Option Tag) (mode : Mode) :
    r'.verdict address tag mode = r.verdict address tag mode := by
  simp only [Registry.verdict, h.record, h.subtags, h.settings]

/-- The answer to a request to register a pointer. -/
def Verdict.answer (value : Pointer) : Verdict → Except PointerError Pointer
  | .conflict existing =>
    .error (.registrationConflict value.text (existing.pointer value.address).text)
  | _ => .ok value

/-- The change that a request to register an address makes. -/
def Verdict.change (tag : Option Tag) (mode : Mode) : Verdict → Change
  | .enter | .overwrite _ => .leave (some (.enter tag mode))
  | .keep | .conflict _ => .keep
  | .addReference existing n => .leave (some { existing with mode := .counted (Mode.oneMore n) })
  | .pin => .leave (some .pinned)

theorem registerAs_eq (h : address ≠ 0) (r : Registry) (tag : Option Tag) (mode : Mode) :
    r.registerAs address tag mode =
      let value := Pointer.wrap address tag
      let verdict := r.verdict address value.tag mode
      (verdict.answer value, (verdict.change value.tag mode).apply address r) := by
  simp only [registerAs, if_neg h]
  cases r.verdict address (Pointer.wrap address tag).tag mode <;> rfl

theorem registerAs_local (address : UInt64) (tag : Option Tag) (mode : Mode) :
    Local address fun r => r.registerAs address tag mode := by
  intro r
  by_cases hNull : address = 0
  · exact ⟨.error .nullPointer, .keep, fun r' _ => if_pos hNull⟩
  · let value := Pointer.wrap address tag
    let verdict := r.verdict address value.tag mode
    refine ⟨verdict.answer value, verdict.change value.tag mode, fun r' hAgrees => ?_⟩
    simp only [registerAs_eq hNull, hAgrees.verdict]
    rfl

/-- A call that makes a change only where the registered tag is compatible with the expected one. -/
theorem local_of_guarded (expected : Option Tag) (absent : α) (fits : Record → α × Change)
    (misfit : Record → α) :
    Local address fun r => match r.record? address with
      | none => (absent, r)
      | some record =>
        if r.subtags.compatible record.tag expected then
          ((fits record).1, (fits record).2.apply address r)
        else (misfit record, r) := by
  intro r
  cases hRecord : r.record? address with
  | none =>
    refine ⟨absent, .keep, fun r' hAgrees => ?_⟩
    simp only [hAgrees.record, hRecord, Change.apply]
  | some record =>
    cases hFits : r.subtags.compatible record.tag expected with
    | true =>
      refine ⟨(fits record).1, (fits record).2, fun r' hAgrees => ?_⟩
      simp only [hAgrees.record, hAgrees.subtags, hRecord, hFits, if_true]
    | false =>
      refine ⟨misfit record, .keep, fun r' hAgrees => ?_⟩
      simp [hAgrees.record, hAgrees.subtags, hRecord, hFits, Change.apply]

theorem unregisterTagged_local (address : UInt64) (expected : Option Tag) :
    Local address fun r => r.unregisterTagged address expected :=
  local_of_guarded expected (.error (.unregistered address expected) : Except PointerError Unit)
    (fun record => (.ok (), .leave record.afterRelease))
    fun record => .error (.mismatch expected record.tag)

theorem invalidate_local (address : UInt64) : Local address fun r => r.invalidate address := by
  intro r
  refine ⟨(r.record? address).isSome, .leave none, fun r' hAgrees => ?_⟩
  simp only [invalidate, hAgrees.record]
  rfl

theorem invalidateTagged_local (address : UInt64) (expected : Option Tag) :
    Local address fun r => r.invalidateTagged address expected :=
  local_of_guarded expected (.ok false : Except PointerError Bool)
    (fun _ => (.ok true, .leave none)) fun record => .error (.mismatch expected record.tag)

/-! ### Calls on values -/

theorem AgreesAt.unwrapTagged (h : AgreesAt address r r') (v : Pointer.Value)
    (expected : Option Tag) : r'.unwrapTagged v expected = r.unwrapTagged v expected := by
  simp only [Registry.unwrapTagged, checkTag, h.subtags]

theorem AgreesAt.unwrapAnyOf (h : AgreesAt address r r') (v : Pointer.Value) (tags : List Tag) :
    r'.unwrapAnyOf v tags = r.unwrapAnyOf v tags := by
  have hPasses (p : Pointer) : r'.passesAny p tags = r.passesAny p tags := by
    simp only [passesAny, checkTag, h.subtags]
  simp only [Registry.unwrapAnyOf, hPasses]

theorem releasePointer_local (p : Pointer) : Local p.address fun r => r.releasePointer p := by
  intro r
  obtain ⟨answer, change, hChange⟩ := unregisterTagged_local p.address p.tag r
  refine ⟨answer.map fun _ => p.address, change, fun r' hAgrees => ?_⟩
  simp only [releasePointer, hChange r' hAgrees]
  cases answer <;> rfl

theorem unregisterValue_local (h : v.address.toOption = some address) (expected : Option Tag) :
    Local address fun r => r.unregisterValue v expected := by
  intro r
  cases hUnwrap : r.unwrapTagged v expected with
  | error e =>
    refine ⟨.error e, .keep, fun r' hAgrees => ?_⟩
    simp only [unregisterValue, hAgrees.unwrapTagged, hUnwrap, Change.apply]
  | ok p =>
    obtain rfl : p.address = address := address_eq_of_pointer (unwrapTagged_eq_ok hUnwrap) h
    cases hNull : p.isNull with
    | true =>
      refine ⟨.ok p.address, .keep, fun r' hAgrees => ?_⟩
      simp only [unregisterValue, hAgrees.unwrapTagged, hUnwrap, hNull, if_true, Change.apply]
    | false =>
      obtain ⟨answer, change, hChange⟩ := releasePointer_local p r
      refine ⟨answer, change, fun r' hAgrees => ?_⟩
      simpa [unregisterValue, hAgrees.unwrapTagged, hUnwrap, hNull] using hChange r' hAgrees

theorem unregisterAnyOf_local (h : v.address.toOption = some address) (tags : List Tag) :
    Local address fun r => r.unregisterAnyOf v tags := by
  intro r
  cases hUnwrap : r.unwrapAnyOf v tags with
  | error e =>
    refine ⟨.error e, .keep, fun r' hAgrees => ?_⟩
    simp only [unregisterAnyOf, hAgrees.unwrapAnyOf, hUnwrap, Change.apply]
  | ok p =>
    obtain rfl : p.address = address := address_eq_of_pointer (unwrapAnyOf_eq_ok hUnwrap) h
    obtain ⟨answer, change, hChange⟩ := releasePointer_local p r
    refine ⟨answer, change, fun r' hAgrees => ?_⟩
    simpa only [unregisterAnyOf, hAgrees.unwrapAnyOf, hUnwrap] using hChange r' hAgrees

theorem retag_change (r : Registry) (address : UInt64) (tag : Option Tag) :
    ∃ change : Change, ∀ r', AgreesAt address r r' →
      r'.retag address tag = change.apply address r' := by
  cases hRecord : r.record? address with
  | none =>
    refine ⟨.keep, fun r' hAgrees => ?_⟩
    simp only [retag, hAgrees.record, hRecord, Change.apply]
  | some record =>
    cases hPinned : record.mode.isPinned with
    | true =>
      refine ⟨.keep, fun r' hAgrees => ?_⟩
      simp only [retag, hAgrees.record, hRecord, hPinned, if_true, Change.apply]
    | false =>
      refine ⟨.leave (some { record with tag }), fun r' hAgrees => ?_⟩
      simp [retag, hAgrees.record, hRecord, hPinned, Change.apply, leave]

theorem cast_local (h : v.address.toOption = some address) (tag : Option Tag) :
    Local address fun r => r.cast v tag := by
  intro r
  cases hPointer : v.pointer with
  | error e => exact ⟨.error e, .keep, fun r' _ => by simp only [cast, hPointer, Change.apply]⟩
  | ok p =>
    obtain rfl : p.address = address := address_eq_of_pointer hPointer h
    have hError {r' : Registry} (hAgrees : AgreesAt p.address r r') :
        r'.castError? p tag = r.castError? p tag := by
      simp only [castError?, hAgrees.record, hAgrees.subtags, hAgrees.settings]
    cases hOwn : r.castError? p tag with
    | some e =>
      refine ⟨.error e, .keep, fun r' hAgrees => ?_⟩
      simp only [cast, hPointer, hError hAgrees, hOwn, Change.apply]
    | none =>
      obtain ⟨change, hChange⟩ := r.retag_change p.address tag
      refine ⟨.ok (.wrap p.address tag), change, fun r' hAgrees => ?_⟩
      simp only [cast, hPointer, hError hAgrees, hOwn, hChange r' hAgrees]

/-! ### Questions -/

theorem AgreesAt.status (h : AgreesAt address r r') (expected : Option Tag) :
    r'.status address expected = r.status address expected := by
  simp only [Registry.status, h.record, h.subtags]

theorem AgreesAt.verifyTagged (h : AgreesAt address r r') (expected : Option Tag) :
    r'.verifyTagged address expected = r.verifyTagged address expected := by
  simp only [Registry.verifyTagged, h.record, h.subtags, h.status]

theorem AgreesAt.verifyValue (h : AgreesAt address r r')
    (hAddress : v.address.toOption = some address) (expected : Option Tag) :
    r'.verifyValue v expected = r.verifyValue v expected := by
  simp only [Registry.verifyValue, h.unwrapTagged]
  cases hUnwrap : r.unwrapTagged v expected with
  | error e => rfl
  | ok p =>
    obtain rfl : p.address = address := address_eq_of_pointer (unwrapTagged_eq_ok hUnwrap) hAddress
    simp only [bind, Except.bind, h.verifyTagged]

theorem AgreesAt.verifyAnyOf (h : AgreesAt address r r')
    (hAddress : v.address.toOption = some address) (tags : List Tag) :
    r'.verifyAnyOf v tags = r.verifyAnyOf v tags := by
  simp only [Registry.verifyAnyOf, h.unwrapAnyOf]
  cases hUnwrap : r.unwrapAnyOf v tags with
  | error e => rfl
  | ok p =>
    obtain rfl : p.address = address := address_eq_of_pointer (unwrapAnyOf_eq_ok hUnwrap) hAddress
    simp only [bind, Except.bind, h.verifyTagged]

theorem AgreesAt.dissect (h : AgreesAt address r r') (hAddress : v.address.toOption = some address)
    (expected : Option Tag) : r'.dissect v expected = r.dissect v expected := by
  cases hPointer : v.pointer with
  | error e => simp only [Registry.dissect, hPointer]; rfl
  | ok p =>
    obtain rfl : p.address = address := address_eq_of_pointer hPointer hAddress
    simp only [Registry.dissect, hPointer, bind, Except.bind, h.status, h.subtags]

theorem AgreesAt.info (h : AgreesAt address r r') (hAddress : v.address.toOption = some address) :
    r'.info v = r.info v := by
  cases hPointer : v.pointer with
  | error e => simp only [Registry.info, hPointer]; rfl
  | ok p =>
    obtain rfl : p.address = address := address_eq_of_pointer hPointer hAddress
    simp only [Registry.info, hPointer, bind, Except.bind, h.record, h.subtags]

/-! ### Any call -/

theorem step_local (h : op.subject? = some address) : Local address fun r => r.step op := by
  cases op with
  | register _ tag => cases h; exact (registerAs_local address tag .uncounted).map _
  | registerCounted _ tag => cases h; exact (registerAs_local address tag (.counted 1)).map _
  | pin => cases h; exact (registerAs_local address none .pinned).map _
  | unregister => cases h; exact (unregisterTagged_local address none).map _
  | unregisterTagged _ expected => cases h; exact (unregisterTagged_local address expected).map _
  | unregisterValue value expected => exact (unregisterValue_local h expected).map _
  | unregisterAnyOf value tags => exact (unregisterAnyOf_local h tags).map _
  | invalidate => cases h; exact (invalidate_local address).map _
  | invalidateTagged _ expected => cases h; exact (invalidateTagged_local address expected).map _
  | cast value tag => exact (cast_local h tag).map _
  | registered =>
    cases h
    exact local_same fun r r' hAgrees => by simp only [registered, hAgrees.record]
  | verify =>
    cases h
    exact local_same fun r r' hAgrees => by simp only [verify, hAgrees.record]
  | verifyTagged _ expected =>
    cases h
    exact local_same fun r r' hAgrees => by rw [hAgrees.verifyTagged]
  | status _ expected =>
    cases h
    exact local_same fun r r' hAgrees => by rw [hAgrees.status]
  | record =>
    cases h
    exact local_same fun r r' hAgrees => by rw [hAgrees.record]
  | verifyValue value expected =>
    exact local_same fun r r' hAgrees => by rw [hAgrees.verifyValue h]
  | verifyAnyOf value tags => exact local_same fun r r' hAgrees => by rw [hAgrees.verifyAnyOf h]
  | dissect value expected => exact local_same fun r r' hAgrees => by rw [hAgrees.dissect h]
  | info value => exact local_same fun r r' hAgrees => by rw [hAgrees.info h]
  | _ => cases h

/-! ### Two calls -/

/-- A call about one address keeps to it: it leaves alone what is not of this address, and its
answer and the record it leaves are the same in all registries that agree at the address. -/
structure Confined (r : Registry) (address : UInt64) (op : Op) : Prop where
  spares : Spares address r (r.step op).2
  answer : ∀ r', AgreesAt address r r' → (r'.step op).1 = (r.step op).1
  record : ∀ r', AgreesAt address r r' →
    (r'.step op).2.record? address = (r.step op).2.record? address

/-- Two calls that can be made in either order: each gets the same answer first or second, and the
registry has the same records, definitions, texts and settings in the end. -/
structure Commute (r : Registry) (op op' : Op) : Prop where
  first : (r.step op).1 = ((r.step op').2.step op).1
  second : ((r.step op).2.step op').1 = (r.step op').1
  record : ∀ address, ((r.step op).2.step op').2.record? address =
    ((r.step op').2.step op).2.record? address
  subtags : ((r.step op).2.step op').2.subtags = ((r.step op').2.step op).2.subtags
  atoms : ((r.step op).2.step op').2.atoms = ((r.step op').2.step op).2.atoms
  settings : ((r.step op).2.step op').2.settings = ((r.step op').2.step op).2.settings

theorem step_confined (h : op.subject? = some address) (r : Registry) : Confined r address op := by
  obtain ⟨answer, change, hChange⟩ := step_local h r
  have hStep (r' : Registry) (hAgrees : AgreesAt address r r') :
      r'.step op = (answer, change.apply address r') := hChange r' hAgrees
  have hOwn := hStep r (.refl address r)
  refine ⟨?_, fun r' hAgrees => ?_, fun r' hAgrees => ?_⟩
  · rw [hOwn]
    exact change.spares address r
  · rw [hOwn, hStep r' hAgrees]
  · rw [hOwn, hStep r' hAgrees]
    exact change.record?_apply hAgrees

theorem Confined.commute {op' : Op} (h : ∀ r, Confined r address op)
    (h' : ∀ r, Confined r other op') (hNe : address ≠ other) (r : Registry) : Commute r op op' := by
  -- Neither call changes what the other one reads.
  have hLeft : AgreesAt other r (r.step op).2 := (h r).spares.agreesAt hNe.symm
  have hRight : AgreesAt address r (r.step op').2 := (h' r).spares.agreesAt hNe
  have hOnce := (h' (r.step op).2).spares
  have hTwice := (h (r.step op').2).spares
  refine ⟨((h r).answer _ hRight).symm, (h' r).answer _ hLeft, fun third => ?_, ?_, ?_, ?_⟩
  · by_cases hThird : third = address
    · subst hThird
      rw [hOnce.record third hNe, (h r).record _ hRight]
    · rw [hTwice.record third hThird]
      by_cases hOther : third = other
      · subst hOther
        rw [(h' r).record _ hLeft]
      · rw [hOnce.record third hOther, (h r).spares.record third hThird,
          (h' r).spares.record third hOther]
  · rw [hOnce.subtags, (h r).spares.subtags, hTwice.subtags, (h' r).spares.subtags]
  · rw [hOnce.atoms, (h r).spares.atoms, hTwice.atoms, (h' r).spares.atoms]
  · rw [hOnce.settings, (h r).spares.settings, hTwice.settings, (h' r).spares.settings]

/-- A call about an address keeps to that address, and it can be made before or after any call about
another one. -/
theorem step_independent (h : op.subject? = some address) (r : Registry) :
    Confined r address op ∧
      ∀ (op' : Op) (other : UInt64), op'.subject? = some other → address ≠ other →
        Commute r op op' :=
  ⟨step_confined h r, fun _ _ h' hNe => Confined.commute (step_confined h) (step_confined h') hNe r⟩

/-- A cast of a text and the last release of another address, the record of which stands before. -/
theorem step_independent_cast :
    let r := (empty .standard).run [.registerCounted 32 (some ⟨"leaf"⟩), .register 16 none, .pin 48]
    let op := Op.cast (.text "0x10") (some ⟨"node"⟩)
    let op' := Op.unregisterTagged 32 (some ⟨"leaf"⟩)
    op.subject? = some 16 ∧ op'.subject? = some 32 ∧ Confined r 16 op ∧ Commute r op op' ∧
      ((r.step op).2.step op').2.records = [(16, ⟨some ⟨"node"⟩, .uncounted⟩), (48, .pinned)] := by
  intro r op op'
  have hCast : op.subject? = some 16 := rfl
  have hRelease : op'.subject? = some 32 := rfl
  obtain ⟨hConfined, hCommute⟩ := step_independent hCast r
  exact ⟨hCast, hRelease, hConfined, hCommute op' 32 hRelease (by decide), by decide +kernel⟩

end ArenaRegistry.Registry
