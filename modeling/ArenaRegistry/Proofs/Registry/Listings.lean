import ArenaRegistry.Proofs.Registry.Locality
import ArenaRegistry.Proofs.Registry.Views
import Mathlib.Data.List.Nodup

/-! Listings. A filter looks at the tag that a record holds, and the listed pointer carries that tag
unless it is the empty one, which a pointer drops. The listings under filters divide the full one by
the tags that its pointers carry as long as no record holds the empty tag, and a cast is the only call
that can make one do so. -/

namespace ArenaRegistry.Registry

variable {r : Registry} {address : UInt64} {op : Op} {ops : List Op}

/-- No record holds the empty tag. -/
def Proper (r : Registry) : Prop := ∀ entry ∈ r.records, entry.2.tag ≠ some .empty

instance (r : Registry) : Decidable r.Proper := inferInstanceAs (Decidable (∀ entry ∈ r.records, _))

/-- A call that asks to put an address under the empty tag. -/
def Op.castsToEmpty : Op → Bool
  | .cast _ (some tag) => tag.isEmpty
  | _ => false

/-- What filters do to the full listing, whatever tags the records hold. -/
structure Filtered (r : Registry) : Prop where
  order : ∀ filter, (r.enumerate filter).Sublist (r.enumerate none)
  once : ∀ filter, (r.enumerate filter).Nodup
  tagged : ∀ tag, tag ≠ .empty →
    r.enumerate (some tag) = (r.enumerate none).filter fun p => p.tag = some tag
  untagged : r.enumerate (some .empty) = (r.enumerate none).filter fun p =>
    (r.record? p.address).map Record.tag = some none

/-- The listings under filters divide the full listing by the tags that its pointers carry. -/
structure Partitioned (r : Registry) : Prop where
  once : ∀ filter, (r.enumerate filter).Nodup
  untagged : r.enumerate (some .empty) = (r.enumerate none).filter fun p => p.tag = none
  tagged : ∀ tag, tag ≠ .empty →
    r.enumerate (some tag) = (r.enumerate none).filter fun p => p.tag = some tag
  whole : ∀ tags : List Tag, tags.Nodup → .empty ∉ tags →
    (∀ p ∈ r.enumerate none, ∀ tag ∈ p.tag, tag ∈ tags) →
    (r.enumerate (some .empty) ++ tags.flatMap fun tag => r.enumerate (some tag)).Perm
      (r.enumerate none)

/-! ### Tags of pointers and of records -/

theorem properTag_eq_some {tag : Tag} (h : tag ≠ .empty) (held : Option Tag) :
    Pointer.properTag held = some tag ↔ held = some tag := by
  by_cases hEmpty : held = some .empty
  · subst hEmpty
    have hDrop : Pointer.properTag (some .empty) = none := rfl
    simp [hDrop, Ne.symm h]
  · rw [Pointer.properTag_of_ne hEmpty]

theorem listedUnder_tagged {tag : Tag} (h : tag ≠ .empty) (record : Record) (address : UInt64) :
    listedUnder (some tag) record = decide ((record.pointer address).tag = some tag) := by
  have hNotEmpty : tag.isEmpty = false := by
    rw [← Bool.not_eq_true, Tag.isEmpty_iff]
    exact h
  rw [Bool.eq_iff_iff]
  simp [listedUnder, hNotEmpty, Record.pointer, Pointer.wrap, properTag_eq_some h]

theorem listedUnder_empty (record : Record) :
    listedUnder (some .empty) record = decide (record.tag = none) := by
  show record.tag.isNone = _
  cases record.tag <;> rfl

theorem Proper.pointer_tag (h : r.Proper) {entry : UInt64 × Record} (hMem : entry ∈ r.records) :
    (entry.2.pointer entry.1).tag = entry.2.tag :=
  Pointer.properTag_of_ne (h entry hMem)

/-! ### Listings as filters of the full one -/

theorem enumerate_eq_filter {filter : Option Tag} {p : Pointer → Bool}
    (h : ∀ entry ∈ r.records, listedUnder filter entry.2 = p (entry.2.pointer entry.1)) :
    r.enumerate filter = (r.enumerate none).filter p := by
  rw [enumerate_none, List.filter_map, enumerate]
  congr 1
  exact List.filter_congr h

theorem Records.find?_of_mem {entry : UInt64 × Record} {records : Records}
    (h : (records.map Prod.fst).Nodup) (hMem : entry ∈ records) :
    records.find? entry.1 = some entry.2 := by
  induction records with
  | nil => cases hMem
  | cons first records ih =>
    obtain ⟨hFirst, hRest⟩ := List.nodup_cons.mp h
    rw [find?_cons]
    rcases List.mem_cons.mp hMem with rfl | hLater
    · rw [if_pos rfl]
    · have hNe : first.1 ≠ entry.1 := fun hEq =>
        hFirst (hEq ▸ List.mem_map_of_mem hLater)
      rw [if_neg hNe, ih hRest hLater]

theorem enumerate_nodup (h : r.WellFormed) (filter : Option Tag) : (r.enumerate filter).Nodup := by
  refine List.Nodup.of_map Pointer.address ?_
  have hSub : ((r.enumerate filter).map Pointer.address).Sublist (r.records.map Prod.fst) := by
    rw [enumerate, List.map_map]
    exact List.filter_sublist.map _
  exact h.distinct.sublist hSub

theorem enumerate_tagged (r : Registry) {tag : Tag} (h : tag ≠ .empty) :
    r.enumerate (some tag) = (r.enumerate none).filter fun p => p.tag = some tag :=
  enumerate_eq_filter fun entry _ => listedUnder_tagged h entry.2 entry.1

theorem WellFormed.filtered (h : r.WellFormed) : r.Filtered := by
  refine ⟨fun filter => ?_, enumerate_nodup h, fun _ hTag => r.enumerate_tagged hTag, ?_⟩
  · rw [enumerate_none]
    exact List.filter_sublist.map _
  · apply enumerate_eq_filter
    intro entry hMem
    have hRecord : r.record? entry.1 = some entry.2 := Records.find?_of_mem h.distinct hMem
    show _ = decide ((r.record? entry.1).map Record.tag = some none)
    rw [listedUnder_empty, hRecord]
    simp

/-! ### The listings together -/

theorem filter_tags_perm (pointers : List Pointer) {tags : List Tag} (h : tags.Nodup) :
    (tags.flatMap fun tag => pointers.filter fun p => p.tag = some tag).Perm
      (pointers.filter fun p => p.tag.any (· ∈ tags)) := by
  induction tags with
  | nil => simp
  | cons tag tags ih =>
    obtain ⟨hNew, hRest⟩ := List.nodup_cons.mp h
    rw [List.flatMap_cons]
    -- Those under one of the tags are those under the first and, apart from them, the others.
    have hFirst : (pointers.filter fun p => p.tag = some tag) =
        (pointers.filter fun p => p.tag.any (· ∈ tag :: tags)).filter fun p => p.tag = some tag := by
      rw [List.filter_filter]
      apply List.filter_congr
      intro p _
      cases p.tag with
      | none => simp
      | some held => simpa using Or.inl
    have hOthers : (pointers.filter fun p => p.tag.any (· ∈ tags)) =
        (pointers.filter fun p => p.tag.any (· ∈ tag :: tags)).filter
          fun p => !decide (p.tag = some tag) := by
      rw [List.filter_filter]
      apply List.filter_congr
      intro p _
      cases hTag : p.tag with
      | none => simp
      | some held =>
        by_cases hHeld : held = tag
        · subst hHeld
          simp [hNew]
        · simp [hHeld]
    refine ((ih hRest).append_left _).trans ?_
    rw [hFirst, hOthers]
    exact List.filter_append_perm _ _

theorem Proper.partitioned (h : r.Proper) (hFormed : r.WellFormed) : r.Partitioned := by
  have hUntagged : r.enumerate (some .empty) = (r.enumerate none).filter fun p => p.tag = none := by
    apply enumerate_eq_filter
    intro entry hMem
    rw [listedUnder_empty, h.pointer_tag hMem]
  refine ⟨enumerate_nodup hFormed, hUntagged, fun _ hTag => r.enumerate_tagged hTag, ?_⟩
  intro tags hDistinct hEmpty hCover
  have hTagged : (tags.flatMap fun tag => r.enumerate (some tag)) =
      tags.flatMap fun tag => (r.enumerate none).filter fun p => p.tag = some tag := by
    apply List.flatMap_congr
    intro tag hMem
    exact r.enumerate_tagged fun hEq => hEmpty (hEq ▸ hMem)
  have hRest : ((r.enumerate none).filter fun p => p.tag.any (· ∈ tags)) =
      (r.enumerate none).filter fun p => !decide (p.tag = none) := by
    apply List.filter_congr
    intro p hMem
    cases hTag : p.tag with
    | none => simp
    | some tag => simpa using hCover p hMem tag hTag
  rw [hUntagged, hTagged]
  refine ((filter_tags_perm _ hDistinct).append_left _).trans ?_
  rw [hRest]
  exact List.filter_append_perm _ _

/-- A record under the empty tag is listed as untagged, and the filter for untagged ones misses
it. -/
theorem Partitioned.proper (h : r.Partitioned) (hFormed : r.WellFormed) : r.Proper := by
  intro entry hMem hEmpty
  have hAll : entry.2.pointer entry.1 ∈ r.enumerate none := by
    rw [enumerate_none]
    exact List.mem_map_of_mem hMem
  have hUntagged : (entry.2.pointer entry.1).tag = none := by
    simp only [Record.pointer, hEmpty]
    rfl
  have hListed : entry.2.pointer entry.1 ∈ r.enumerate (some .empty) := by
    rw [h.untagged, List.mem_filter]
    exact ⟨hAll, by simp [hUntagged]⟩
  rw [hFormed.filtered.untagged, List.mem_filter] at hListed
  have hRecord : r.record? (entry.2.pointer entry.1).address = some entry.2 :=
    Records.find?_of_mem hFormed.distinct hMem
  simp [hRecord, hEmpty] at hListed

/-! ### One call -/

theorem Proper.record? (h : r.Proper) {record : Record} (hRecord : r.record? address = some record) :
    record.tag ≠ some .empty :=
  h _ (Records.mem_of_find? hRecord)

theorem Proper.remove (h : r.Proper) (address : UInt64) : (r.remove address).Proper :=
  fun entry hMem => h entry (List.mem_filter.mp hMem).1

theorem Proper.leave (h : r.Proper) {after : Option Record}
    (hAfter : ∀ record ∈ after, record.tag ≠ some .empty) : (r.leave address after).Proper := by
  cases after with
  | none => exact h.remove address
  | some record =>
    intro entry hMem
    rcases Records.mem_put hMem with rfl | hOld
    · exact hAfter record rfl
    · exact h entry hOld

theorem Proper.registerAs (h : r.Proper) (address : UInt64) (tag : Option Tag) (mode : Mode) :
    (r.registerAs address tag mode).2.Proper := by
  by_cases hNull : address = 0
  · rw [Registry.registerAs, if_pos hNull]
    exact h
  have hNew : (Record.enter (Pointer.wrap address tag).tag mode).tag ≠ some .empty := by
    simp only [Record.enter]
    split
    · simp
    · exact (Pointer.wrap address tag).tag_ne_empty
  have hFits := r.verdict_fits address (Pointer.wrap address tag).tag mode
  rw [registerAs_eq hNull]
  show ((r.verdict address _ mode).change _ mode |>.apply address r).Proper
  cases hVerdict : r.verdict address (Pointer.wrap address tag).tag mode with
  | enter => exact h.leave (by rintro _ ⟨⟩; exact hNew)
  | overwrite => exact h.leave (by rintro _ ⟨⟩; exact hNew)
  | keep => exact h
  | conflict => exact h
  | pin => exact h.leave (by rintro _ ⟨⟩; simp [Record.pinned])
  | addReference existing n =>
    rw [hVerdict] at hFits
    have hTag : existing.tag ≠ some .empty := h.record? hFits.1
    exact h.leave (by rintro _ ⟨⟩; exact hTag)

theorem Record.afterRelease_tag {record left : Record} (h : record.afterRelease = some left) :
    left.tag = record.tag := by
  unfold afterRelease at h
  split at h
  · cases h; rfl
  · split at h
    · cases h; rfl
    · cases h
  · cases h

theorem Proper.release (h : r.Proper) {record : Record} (hRecord : r.record? address = some record) :
    (r.leave address record.afterRelease).Proper := by
  refine h.leave fun left hLeft => ?_
  rw [Record.afterRelease_tag hLeft]
  exact h.record? hRecord

theorem Proper.unregisterTagged (h : r.Proper) (address : UInt64) (expected : Option Tag) :
    (r.unregisterTagged address expected).2.Proper := by
  rcases r.unregisterTagged_cases address expected with ⟨e, hFails⟩ | ⟨record, hRecord, -, hOk⟩
  · rw [hFails]
    exact h
  · rw [hOk]
    exact h.release hRecord

theorem Proper.releasePointer (h : r.Proper) (p : Pointer) : (r.releasePointer p).2.Proper := by
  rcases r.releasePointer_cases p with ⟨e, hFails⟩ | ⟨record, hRecord, -, hOk⟩
  · rw [hFails]
    exact h
  · rw [hOk]
    exact h.release hRecord

theorem Proper.unregisterValue (h : r.Proper) (v : Pointer.Value) (expected : Option Tag) :
    (r.unregisterValue v expected).2.Proper := by
  rcases r.unregisterValue_cases v expected with ⟨e, hFails⟩ | ⟨p, -, ⟨-, hNull⟩ | ⟨-, hOk⟩⟩
  · rw [hFails]
    exact h
  · rw [hNull]
    exact h
  · rw [hOk]
    exact h.releasePointer p

theorem Proper.unregisterAnyOf (h : r.Proper) (v : Pointer.Value) (tags : List Tag) :
    (r.unregisterAnyOf v tags).2.Proper := by
  rcases r.unregisterAnyOf_cases v tags with ⟨e, hFails⟩ | ⟨p, -, hOk⟩
  · rw [hFails]
    exact h
  · rw [hOk]
    exact h.releasePointer p

theorem Proper.invalidateTagged (h : r.Proper) (address : UInt64) (expected : Option Tag) :
    (r.invalidateTagged address expected).2.Proper := by
  rcases r.invalidateTagged_cases address expected with ⟨answer, hStays⟩ | hGone
  · rw [hStays]
    exact h
  · rw [hGone]
    exact h.remove address

theorem Proper.retag (h : r.Proper) (address : UInt64) {tag : Option Tag} (hTag : tag ≠ some .empty) :
    (r.retag address tag).Proper := by
  rcases r.retag_cases address tag with hSame | ⟨record, -, -, hRetag⟩
  · rw [hSame]
    exact h
  · rw [hRetag]
    exact h.leave (by rintro _ ⟨⟩; exact hTag)

theorem Proper.cast (h : r.Proper) (v : Pointer.Value) {tag : Option Tag} (hTag : tag ≠ some .empty) :
    (r.cast v tag).2.Proper := by
  rcases r.cast_cases v tag with ⟨e, hFails⟩ | ⟨p, -, -, hOk⟩
  · rw [hFails]
    exact h
  · rw [hOk]
    exact h.retag p.address hTag

theorem Proper.step (h : r.Proper) (hOp : op.castsToEmpty = false) : (r.step op).2.Proper := by
  cases op with
  | register address tag => exact h.registerAs address tag .uncounted
  | registerCounted address tag => exact h.registerAs address tag (.counted 1)
  | pin address => exact h.registerAs address none .pinned
  | unregister address => exact h.unregisterTagged address none
  | unregisterTagged address expected => exact h.unregisterTagged address expected
  | unregisterValue value expected => exact h.unregisterValue value expected
  | unregisterAnyOf value tags => exact h.unregisterAnyOf value tags
  | invalidate address => exact h.remove address
  | invalidateTagged address expected => exact h.invalidateTagged address expected
  | cast value tag =>
    refine h.cast value ?_
    rintro rfl
    cases hOp
  | clear => intro entry hMem; cases hMem
  | _ => exact h

/-! ### Runs -/

theorem Proper.run (h : r.Proper) (hOps : ∀ op ∈ ops, op.castsToEmpty = false) :
    (r.run ops).Proper := by
  induction ops generalizing r with
  | nil => exact h
  | cons op ops ih =>
    obtain ⟨hFirst, hRest⟩ := List.forall_mem_cons.mp hOps
    exact ih (h.step hFirst) hRest

/-- Whatever calls are made, a listing under a tag is the part of the full one that carries the tag.
The listing of the untagged records makes the division whole exactly if no record holds the empty
tag, and none does unless a call has cast to that tag. -/
theorem run_listings {settings : Settings} (hCreate : create settings = .ok r) (ops : List Op) :
    (r.run ops).Filtered ∧ ((r.run ops).Partitioned ↔ (r.run ops).Proper) ∧
      ((∀ op ∈ ops, op.castsToEmpty = false) → (r.run ops).Partitioned) := by
  have hEmpty : r = empty settings := create_eq_ok hCreate
  have hFormed : (r.run ops).WellFormed := (hEmpty ▸ empty_wellFormed settings).run ops
  have hProper : r.Proper := by
    rw [hEmpty]
    intro entry hMem
    cases hMem
  exact ⟨hFormed.filtered, ⟨fun h => h.proper hFormed, fun h => h.partitioned hFormed⟩,
    fun hOps => (hProper.run hOps).partitioned hFormed⟩

/-- Registrations with and without a tag, one under the empty tag, and a cast to a tag. -/
def taggedCalls : List Op :=
  [.register 16 (some ⟨"Dog"⟩), .registerCounted 32 (some .empty), .pin 48,
    .register 64 none, .cast (.text "0x40") (some ⟨"Cat"⟩), .register 80 (some ⟨"Dog"⟩)]

theorem run_listings_tagged :
    create .standard = .ok (empty .standard) ∧
      ((empty .standard).run taggedCalls).Filtered ∧
      ((empty .standard).run taggedCalls).Partitioned ∧
      (((empty .standard).run taggedCalls).enumerate (some .empty)).map Pointer.address = [32, 48] ∧
      (((empty .standard).run taggedCalls).enumerate (some ⟨"Dog"⟩)).map Pointer.address =
        [16, 80] := by
  have hCreate : create .standard = .ok (empty .standard) := rfl
  obtain ⟨hFiltered, -, hPartitioned⟩ := run_listings hCreate taggedCalls
  exact ⟨hCreate, hFiltered, hPartitioned (by decide +kernel), by decide +kernel, by decide +kernel⟩

/-- A registration without a tag that is cast to the empty one. -/
def castToEmpty : List Op := [.register 4096 none, .cast (.text "0x1000") (some .empty)]

/-- After a cast to the empty tag, a pointer stands in the full listing without a tag and is missing
from the listing of the untagged ones. -/
theorem not_partitioned_castToEmpty :
    create .standard = .ok (empty .standard) ∧
      ((empty .standard).run castToEmpty).enumerate none = [.wrap 4096 none] ∧
      ((empty .standard).run castToEmpty).enumerate (some .empty) = [] ∧
      ¬((empty .standard).run castToEmpty).Partitioned := by
  have hAll : ((empty .standard).run castToEmpty).enumerate none = [.wrap 4096 none] := by
    decide +kernel
  have hUntagged : ((empty .standard).run castToEmpty).enumerate (some .empty) = [] := by
    decide +kernel
  refine ⟨rfl, hAll, hUntagged, fun h => ?_⟩
  have hListed := h.untagged
  rw [hUntagged, hAll] at hListed
  simp [Pointer.wrap, Pointer.properTag] at hListed

end ArenaRegistry.Registry
