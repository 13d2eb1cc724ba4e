import ArenaRegistry.Proofs.Registry.Order
import ArenaRegistry.Proofs.Tag.Walks

/-! Pins. A call on a pinned address leaves the registry exactly as it is, whatever tags it names,
unless it is an invalidation under no tag or clears everything. So a pin stays, without a tag and in
its place, through any run without such calls. -/

namespace ArenaRegistry.Registry

variable {r : Registry} {address : UInt64} {op : Op} {ops : List Op} {record : Record}

/-- The calls that take the pin of an address away. -/
def Op.Unpins (address : UInt64) (op : Op) : Prop :=
  op = .clear ∨ op = .invalidate address ∨ op = .invalidateTagged address none

instance (address : UInt64) (op : Op) : Decidable (op.Unpins address) :=
  inferInstanceAs (Decidable (_ ∨ _ ∨ _))

/-- The calls on an address that a pin of it always lets through. -/
def Op.SuitsPin (address : UInt64) : Op → Prop
  | .register other _ | .registerCounted other _ | .pin other | .unregister other => other = address
  | _ => False

/-- An address that is pinned. -/
structure HoldsPin (r : Registry) (address : UInt64) : Prop where
  nonnull : address ≠ 0
  record : r.record? address = some .pinned

theorem WellFormed.holdsPin (h : r.WellFormed) (hRecord : r.record? address = some record)
    (hMode : record.mode = .pinned) : r.HoldsPin address := by
  obtain ⟨hNonnull, hSound⟩ := h.record? hRecord
  refine ⟨hNonnull, ?_⟩
  obtain ⟨tag, mode⟩ := record
  have hTag : tag = none := hSound.untagged hMode
  have hPinned : mode = .pinned := hMode
  rw [hRecord, hTag, hPinned]
  rfl

/-! ### Calls on a pinned address -/

theorem Records.put_of_find? {record : Record} {records : Records}
    (h : records.find? address = some record) : put address record records = records := by
  have hSame := map_put (f := id) h rfl
  rwa [List.map_id, List.map_id] at hSame

theorem leave_of_record? (h : r.record? address = some record) :
    r.leave address (some record) = r := by
  show { r with records := r.records.put address record } = r
  rw [Records.put_of_find? h]

theorem HoldsPin.registerAs (h : r.HoldsPin address) (tag : Option Tag) (mode : Mode) :
    r.registerAs address tag mode = (.ok (.wrap address tag), r) := by
  have hKeep : r.verdict address (Pointer.wrap address tag).tag mode = .keep := by
    simp [verdict, h.record, Record.pinned]
  unfold Registry.registerAs
  rw [if_neg h.nonnull]
  simp only [hKeep]

theorem HoldsPin.release (h : r.HoldsPin address) (hRecord : r.record? address = some record) :
    r.leave address record.afterRelease = r := by
  rw [h.record] at hRecord
  cases hRecord
  exact leave_of_record? h.record

theorem HoldsPin.unregisterTagged (h : r.HoldsPin address) (expected : Option Tag) :
    (r.unregisterTagged address expected).2 = r := by
  rcases r.unregisterTagged_cases address expected with ⟨e, hFails⟩ | ⟨record, hRecord, -, hOk⟩
  · rw [hFails]
  · rw [hOk]
    exact h.release hRecord

theorem HoldsPin.unregister (h : r.HoldsPin address) : (r.unregister address).1 = .ok () := by
  simp [Registry.unregister, Registry.unregisterTagged, h.record]

theorem HoldsPin.invalidateTagged (h : r.HoldsPin address) (tag : Tag) :
    (r.invalidateTagged address (some tag)).2 = r := by
  simp [Registry.invalidateTagged, h.record, Record.pinned, Subtags.compatible]

theorem HoldsPin.releasePointer {p : Pointer} (h : r.HoldsPin p.address) :
    (r.releasePointer p).2 = r := by
  rcases r.releasePointer_cases p with ⟨e, hFails⟩ | ⟨record, hRecord, -, hOk⟩
  · rw [hFails]
  · rw [hOk]
    exact h.release hRecord

theorem HoldsPin.unregisterValue {v : Pointer.Value} (h : r.HoldsPin address)
    (hAddress : v.address.toOption = some address) (expected : Option Tag) :
    (r.unregisterValue v expected).2 = r := by
  rcases r.unregisterValue_cases v expected with ⟨e, hFails⟩ | ⟨p, hUnwrap, ⟨-, hNull⟩ | ⟨-, hOk⟩⟩
  · rw [hFails]
  · rw [hNull]
  · obtain rfl := address_eq_of_pointer (unwrapTagged_eq_ok hUnwrap) hAddress
    rw [hOk]
    exact h.releasePointer

theorem HoldsPin.unregisterAnyOf {v : Pointer.Value} (h : r.HoldsPin address)
    (hAddress : v.address.toOption = some address) (tags : List Tag) :
    (r.unregisterAnyOf v tags).2 = r := by
  rcases r.unregisterAnyOf_cases v tags with ⟨e, hFails⟩ | ⟨p, hUnwrap, hOk⟩
  · rw [hFails]
  · obtain rfl := address_eq_of_pointer (unwrapAnyOf_eq_ok hUnwrap) hAddress
    rw [hOk]
    exact h.releasePointer

theorem HoldsPin.cast {v : Pointer.Value} (h : r.HoldsPin address)
    (hAddress : v.address.toOption = some address) (tag : Option Tag) : (r.cast v tag).2 = r := by
  rcases r.cast_cases v tag with ⟨e, hFails⟩ | ⟨p, hPointer, -, hOk⟩
  · rw [hFails]
  · obtain rfl := address_eq_of_pointer hPointer hAddress
    rw [hOk]
    exact retag_of_pinned h.record rfl tag

/-- A call on a pinned address that does not take the pin away changes nothing at all. -/
theorem HoldsPin.step_snd (h : r.HoldsPin address) (hTarget : op.target? = some address)
    (hSpares : ¬op.Unpins address) : (r.step op).2 = r := by
  cases op with
  | register other tag =>
    cases hTarget
    exact congrArg Prod.snd (h.registerAs tag .uncounted)
  | registerCounted other tag =>
    cases hTarget
    exact congrArg Prod.snd (h.registerAs tag (.counted 1))
  | pin other =>
    cases hTarget
    exact congrArg Prod.snd (h.registerAs none .pinned)
  | unregister other => cases hTarget; exact h.unregisterTagged none
  | unregisterTagged other expected => cases hTarget; exact h.unregisterTagged expected
  | unregisterValue value expected => exact h.unregisterValue hTarget expected
  | unregisterAnyOf value tags => exact h.unregisterAnyOf hTarget tags
  | invalidate other => cases hTarget; exact absurd (.inr (.inl rfl)) hSpares
  | invalidateTagged other expected =>
    cases hTarget
    cases expected with
    | none => exact absurd (.inr (.inr rfl)) hSpares
    | some tag => exact h.invalidateTagged tag
  | cast value tag => exact h.cast hTarget tag
  | _ => cases hTarget

theorem HoldsPin.step (h : r.HoldsPin address) (hSpares : ¬op.Unpins address) :
    (r.step op).2.HoldsPin address := by
  by_cases hTarget : op.target? = some address
  · rw [h.step_snd hTarget hSpares]
    exact h
  · have hApart : ¬op.Touches address := by
      rintro (hClear | hTouch)
      · exact hSpares (.inl hClear)
      · exact hTarget hTouch
    refine ⟨h.nonnull, ?_⟩
    rw [step_record?_of_not_touches hApart]
    exact h.record

theorem HoldsPin.registerAs_isOk (h : r.HoldsPin address) (tag : Option Tag) (mode : Mode) :
    ((r.registerAs address tag mode).1.map Reply.pointer).isOk = true := by
  rw [h.registerAs]
  rfl

theorem HoldsPin.accepts (h : r.HoldsPin address) (hSuits : op.SuitsPin address) :
    (r.step op).1.isOk = true := by
  cases op with
  | register other tag =>
    obtain rfl : other = address := hSuits
    exact h.registerAs_isOk tag .uncounted
  | registerCounted other tag =>
    obtain rfl : other = address := hSuits
    exact h.registerAs_isOk tag (.counted 1)
  | pin other =>
    obtain rfl : other = address := hSuits
    exact h.registerAs_isOk none .pinned
  | unregister other =>
    obtain rfl : other = address := hSuits
    show ((r.unregister other).1.map _).isOk = true
    rw [h.unregister]
    rfl
  | _ => cases hSuits

theorem HoldsPin.unpinned (h : r.HoldsPin address) (hUnpins : op.Unpins address) :
    (r.step op).2.record? address = none := by
  rcases hUnpins with rfl | rfl | rfl
  · rfl
  · exact record?_leave_self r address none
  · show (r.invalidateTagged address none).2.record? address = none
    simp only [Registry.invalidateTagged, h.record, Subtags.compatible_none, if_true]
    exact record?_leave_self r address none

/-! ### Runs -/

theorem HoldsPin.run (h : r.HoldsPin address) (hSpares : ∀ op ∈ ops, ¬op.Unpins address) :
    (r.run ops).HoldsPin address := by
  induction ops generalizing r with
  | nil => exact h
  | cons op ops ih =>
    obtain ⟨hFirst, hRest⟩ := List.forall_mem_cons.mp hSpares
    exact ih (h.step hFirst) hRest

/-- From any registry that calls have led to, an address that is pinned stays pinned and untagged
after each of the calls that follow, behind those of the earlier addresses that have stayed
registered, as long as none of the calls takes the pin away. All the while registering, pinning and
releasing the address succeed, and each of the calls that take the pin away would do so. -/
theorem run_pinned {settings : Settings} {past : List Op} (hCreate : create settings = .ok r)
    (hRecord : (r.run past).record? address = some record) (hMode : record.mode = .pinned)
    (hSpares : ∀ op ∈ ops, ¬op.Unpins address) :
    ∀ k ≤ ops.length,
      ((r.run past).run (ops.take k)).record? address = some ⟨none, .pinned⟩ ∧
      ((r.run past).run (ops.take k)).earlier address =
        ((r.run past).earlier address).filter (fun other =>
          decide (∀ j ≤ k, (((r.run past).run (ops.take j)).record? other).isSome = true)) ∧
      (∀ op : Op, op.SuitsPin address →
        (((r.run past).run (ops.take k)).step op).1.isOk = true) ∧
      ∀ op : Op, op.Unpins address →
        (((r.run past).run (ops.take k)).step op).2.record? address = none := by
  have hPast : (r.run past).WellFormed := (create_eq_ok hCreate ▸ empty_wellFormed settings).run past
  have hPin := hPast.holdsPin hRecord hMode
  have hHolds (k : Nat) : ((r.run past).run (ops.take k)).HoldsPin address :=
    hPin.run fun op hMem => hSpares op ((List.take_sublist k ops).mem hMem)
  intro k hk
  refine ⟨(hHolds k).record, ?_, fun op => (hHolds k).accepts, fun op => (hHolds k).unpinned⟩
  apply run_earlier hk
  intro j _
  rw [(hHolds j).record]
  rfl

/-- Calls on the pinned address 16 of every kind that may be made on one, among calls that take an
earlier address away and register it anew, define a subtag and release a later address. -/
def callsAroundPin : List Op :=
  [.register 16 (some ⟨"Dog"⟩), .cast (.text "0x10") (some ⟨"Dog"⟩), .invalidate 32, .pin 16,
    .defineSubtag ⟨"Dog"⟩ (some ⟨"Animal"⟩), .unregisterTagged 16 (some ⟨"Animal"⟩),
    .register 32 (some ⟨"Dog"⟩), .unregisterValue (.text "0x10") none, .unregister 48,
    .invalidateTagged 16 (some .empty), .unregisterAnyOf (.text "0x10^Dog") [⟨"Dog"⟩],
    .registerCounted 16 none]

theorem run_pinned_reject :
    let r := empty ⟨10, .reject, true⟩
    let past : List Op := [.register 32 none, .register 64 none,
      .registerCounted 16 (some ⟨"Dog"⟩), .pin 16, .register 48 none]
    create ⟨10, .reject, true⟩ = .ok r ∧
      (r.run past).record? 16 = some ⟨none, .pinned⟩ ∧
      (∀ op ∈ callsAroundPin, ¬op.Unpins 16) ∧
      (∀ k ≤ callsAroundPin.length,
        ((r.run past).run (callsAroundPin.take k)).record? 16 = some ⟨none, .pinned⟩) ∧
      (r.run past).addresses = [32, 64, 16, 48] ∧
      ((r.run past).run callsAroundPin).addresses = [64, 16, 32] ∧
      (((r.run past).run callsAroundPin).step (.invalidateTagged 16 none)).2.record? 16 = none := by
  intro r past
  have hCreate : create ⟨10, .reject, true⟩ = .ok r := rfl
  have hRecord : (r.run past).record? 16 = some ⟨none, .pinned⟩ := by decide +kernel
  have hSpares : ∀ op ∈ callsAroundPin, ¬op.Unpins 16 := by decide +kernel
  have hPinned := run_pinned hCreate hRecord rfl hSpares
  obtain ⟨-, -, -, hUnpins⟩ := hPinned callsAroundPin.length (Nat.le_refl _)
  exact ⟨hCreate, hRecord, hSpares, fun k hk => (hPinned k hk).1, by decide +kernel,
    by decide +kernel, hUnpins (.invalidateTagged 16 none) (by decide +kernel)⟩

end ArenaRegistry.Registry
