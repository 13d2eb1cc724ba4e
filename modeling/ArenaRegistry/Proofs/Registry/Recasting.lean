import ArenaRegistry.Proofs.Registry.Casting
import ArenaRegistry.Proofs.Registry.Locality
import ArenaRegistry.Proofs.Registry.Pinned

/-! Casting back. A cast looks for a relation between tags in either direction, so the pointer that
it returns passes the same checks on the way back. A pointer drops the empty tag and a record keeps
it, which does no harm, since a missing tag is related to every tag. The way back leaves the
registry as it was before, if the record was under the tag of the value to begin with. -/

namespace ArenaRegistry.Registry

variable {r r' : Registry} {v : Pointer.Value} {p q : Pointer} {address : UInt64}
  {old new : Option Tag} {record : Record}

/-- The registered addresses in their order, each with its mode and its count of references. -/
def modes (r : Registry) : List (UInt64 × Mode) :=
  r.records.map fun entry => (entry.1, entry.2.mode)

/-- The address of a pointer has no record, a pinned one, or one under exactly the tag of the
pointer. -/
def SuitsRecord (r : Registry) (p : Pointer) : Prop :=
  ∀ record ∈ r.record? p.address, record.mode = .pinned ∨ record.tag = p.tag

instance (r : Registry) (p : Pointer) : Decidable (r.SuitsRecord p) :=
  inferInstanceAs (Decidable (∀ record ∈ r.record? p.address, _))

/-- What a tag is related to is related to the tag that a pointer under it carries. -/
theorem related_properTag {s : Subtags} {tag : Option Tag} (h : s.related tag new = true) :
    s.related (Pointer.properTag new) tag = true := by
  by_cases hEmpty : new = some .empty
  · subst hEmpty
    exact s.related_none tag
  · rw [Pointer.properTag_of_ne hEmpty, Subtags.related_comm]
    exact h

/-! ### Another tag for a record -/

theorem retag_spares (r : Registry) (address : UInt64) (tag : Option Tag) :
    Spares address r (r.retag address tag) := by
  obtain ⟨change, hChange⟩ := r.retag_change address tag
  rw [hChange r (.refl address r)]
  exact change.spares address r

theorem retag_modes (r : Registry) (address : UInt64) (tag : Option Tag) :
    (r.retag address tag).modes = r.modes := by
  rcases r.retag_cases address tag with hSame | ⟨record, hRecord, -, hRetag⟩
  · rw [hSame]
  · rw [hRetag]
    exact Records.map_put hRecord rfl

theorem record?_retag_of_free (hRecord : r.record? address = some record)
    (hFree : record.mode ≠ .pinned) :
    (r.retag address new).record? address = some { record with tag := new } := by
  rw [retag_of_free hRecord hFree, record?_leave_self]

/-- A record that was under a tag is as before when it comes under it again. -/
theorem retag_back (h : ∀ record ∈ r.record? address, record.mode = .pinned ∨ record.tag = old)
    (new : Option Tag) : (r.retag address new).retag address old = r := by
  cases hRecord : r.record? address with
  | none => rw [retag_of_none hRecord, retag_of_none hRecord]
  | some record =>
    by_cases hPinned : record.mode = .pinned
    · rw [retag_of_pinned hRecord hPinned, retag_of_pinned hRecord hPinned]
    · have hOld : record.tag = old := (h record hRecord).resolve_left hPinned
      have hSame : { record with tag := old } = record := by rw [← hOld]
      have hBetween : (r.retag address new).record? address = some { record with tag := new } :=
        record?_retag_of_free hRecord hPinned
      rw [retag_of_free hBetween hPinned, retag_of_free hRecord hPinned, hSame]
      show { r with records := Records.put _ _ (Records.put _ _ r.records) } = r
      rw [Records.put_put, Records.put_of_find? hRecord]

/-! ### The checks on the way back -/

theorem castError?_back (h : r.WellFormed) (hNone : r.castError? p new = none) :
    (r.retag p.address new).castError? (.wrap p.address new) p.tag = none := by
  cases hRecord : r.record? p.address with
  | none =>
    obtain ⟨hAllowed, hNew⟩ := (castError?_of_none hRecord).mp hNone
    rw [retag_of_none hRecord]
    exact (castError?_of_none (p := .wrap p.address new) hRecord).mpr
      ⟨hAllowed, related_properTag hNew⟩
  | some record =>
    obtain ⟨-, hNew⟩ := (castError?_of_record hRecord).mp hNone
    by_cases hPinned : record.mode = .pinned
    · rw [retag_of_pinned hRecord hPinned]
      refine (castError?_of_record (p := .wrap p.address new) hRecord).mpr
        ⟨?_, related_properTag hNew⟩
      rw [(h.record? hRecord).2.untagged hPinned, Subtags.related_comm]
      exact Subtags.related_none _ _
    · have hBetween : (r.retag p.address new).record? p.address = some { record with tag := new } :=
        record?_retag_of_free hRecord hPinned
      refine (castError?_of_record (p := .wrap p.address new) hBetween).mpr ?_
      rw [(retag_spares r p.address new).subtags]
      exact ⟨related_properTag (Subtags.related_self _ _), related_properTag hNew⟩

/-- The pointer that a cast returns, in whatever form, can be cast back to the tag of the value, if
the address of the value has no record, a pinned one, or one under exactly the tag of the value. The
cast back returns the pointer of the value and leaves the registry as it was. The cast itself has
changed no mode, no count, no place and no other record. -/
theorem cast_undone {settings : Settings} {past : List Op} (hCreate : create settings = .ok r)
    (hPointer : v.pointer = .ok p) (hSuits : (r.run past).SuitsRecord p)
    (hCast : (r.run past).cast v new = (.ok q, r')) :
    (∀ w : Pointer.Value, w.pointer = .ok q → r'.cast w p.tag = (.ok p, r.run past)) ∧
      r'.modes = (r.run past).modes ∧ Spares p.address (r.run past) r' := by
  have hPast : (r.run past).WellFormed := run_wellFormed_of_create hCreate past
  have hNone : (r.run past).castError? p new = none :=
    castError?_of_cast hPointer (by rw [hCast]; rfl)
  rw [cast_of_castError? hPointer hNone] at hCast
  cases hCast
  refine ⟨fun w hBack => ?_, retag_modes _ _ _, retag_spares _ _ _⟩
  rw [cast_of_castError? hBack (castError?_back hPast hNone)]
  have hAgain : ((r.run past).retag p.address new).retag p.address p.tag = r.run past :=
    retag_back hSuits new
  exact Prod.ext (congrArg Except.ok p.wrap_address_tag) hAgain

/-- A counted record that a cast puts under the empty tag, and a cast back from the text of the
address alone. -/
theorem cast_undone_empty :
    let r := (empty ⟨10, .reject, true⟩).run
      [.defineSubtag ⟨"leaf"⟩ (some .empty), .registerCounted 16 (some ⟨"leaf"⟩), .pin 32]
    let v := Pointer.Value.text "0x10^leaf"
    let r' := (r.cast v (some .empty)).2
    r.SuitsRecord (.wrap 16 (some ⟨"leaf"⟩)) ∧
      (r.cast v (some .empty)).1 = .ok (.wrap 16 none) ∧
      r'.record? 16 = some ⟨some .empty, .counted 1⟩ ∧
      r'.cast (.text "0x10") (some ⟨"leaf"⟩) = (.ok (.wrap 16 (some ⟨"leaf"⟩)), r) ∧
      r'.modes = [(16, .counted 1), (32, .pinned)] := by
  intro r v r'
  have hCreate : create ⟨10, .reject, true⟩ = .ok (empty ⟨10, .reject, true⟩) := rfl
  have hPointer : v.pointer = .ok (.wrap 16 (some ⟨"leaf"⟩)) := rfl
  have hSuits : r.SuitsRecord (.wrap 16 (some ⟨"leaf"⟩)) := by decide +kernel
  have hAnswer : (r.cast v (some .empty)).1 = .ok (.wrap 16 none) := by rfl
  obtain ⟨hBack, hModes, -⟩ := cast_undone hCreate hPointer hSuits (Prod.ext hAnswer rfl)
  exact ⟨hSuits, hAnswer, by decide +kernel, hBack _ rfl, hModes.trans (by decide +kernel)⟩

end ArenaRegistry.Registry
