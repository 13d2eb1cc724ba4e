import ArenaRegistry.Proofs.Registry.WellFormed
import ArenaRegistry.Proofs.Tag.Walks

/-! What a cast can make of a registered tag. A cast checks the tag of the value against the
registered tag and against the new one, each in either direction, so the registered tag and the new
one are two steps of relation apart. They are related themselves unless the value has no tag, or a
tag that both descend from, or one between them on a way longer than a walk may be. -/

namespace ArenaRegistry.Registry

variable {r r' : Registry} {v : Pointer.Value} {p q : Pointer} {record : Record}
  {old new : Tag} {new? : Option Tag}

/-! ### When a cast succeeds -/

theorem castError?_of_none (h : r.record? p.address = none) :
    r.castError? p new? = none ↔
      (r.settings.castRequiresRegistration = true → p.isNull = true) ∧
        r.subtags.related p.tag new? = true := by
  unfold castError?
  simp only [h]
  cases r.settings.castRequiresRegistration with
  | false => simp
  | true => cases p.isNull <;> simp

theorem castError?_of_record (h : r.record? p.address = some record) :
    r.castError? p new? = none ↔
      r.subtags.related p.tag record.tag = true ∧ r.subtags.related p.tag new? = true := by
  unfold castError?
  simp only [h]
  by_cases hOld : r.subtags.related p.tag record.tag = true
  · simp [hOld]
  · simp [hOld]

theorem cast_of_castError? (hPointer : v.pointer = .ok p) (hNone : r.castError? p new? = none) :
    r.cast v new? = (.ok (.wrap p.address new?), r.retag p.address new?) := by
  simp only [cast, hPointer, hNone]

theorem castError?_of_cast (hPointer : v.pointer = .ok p) (hOk : (r.cast v new?).1.isOk = true) :
    r.castError? p new? = none := by
  unfold cast at hOk
  simp only [hPointer] at hOk
  split at hOk
  · cases hOk
  · assumption

/-- A cast of a registered pointer succeeds when its own tag is related to the registered tag and to
the new one. -/
theorem cast_isOk_iff (hPointer : v.pointer = .ok p) (hRecord : r.record? p.address = some record) :
    (r.cast v new?).1.isOk = true ↔
      r.subtags.related p.tag record.tag = true ∧ r.subtags.related p.tag new? = true := by
  rw [← castError?_of_record hRecord]
  refine ⟨castError?_of_cast hPointer, fun hNone => ?_⟩
  rw [cast_of_castError? hPointer hNone]
  rfl

/-- A cast that succeeds puts an address that is not pinned under the new tag. -/
theorem cast_record? (hPointer : v.pointer = .ok p) (hRecord : r.record? p.address = some record)
    (hFree : record.mode ≠ .pinned) (hOk : (r.cast v new?).1.isOk = true) :
    (r.cast v new?).2.record? p.address = some { record with tag := new? } := by
  rw [cast_of_castError? hPointer (castError?_of_cast hPointer hOk), retag_of_free hRecord hFree]
  exact record?_leave_self r p.address _

/-! ### What lies between two tags that are not related -/

/-- How the tag of a value is related to two tags that are not related to each other. -/
inductive Bridges (s : Subtags) (old new : Tag) : Option Tag → Prop
  /-- The value has no tag. -/
  | untyped : Bridges s old new none
  /-- Both tags descend from the tag of the value. -/
  | above {via : Tag} (ofOld : s.isAncestor old via = true) (ofNew : s.isAncestor new via = true) :
      Bridges s old new (some via)
  /-- The way up leads over the tag of the value from the old tag to the new one. -/
  | upward {via : Tag} (ofOld : s.isAncestor old via = true) (toNew : s.isAncestor via new = true) :
      Bridges s old new (some via)
  /-- The way up leads over the tag of the value from the new tag to the old one. -/
  | downward {via : Tag} (toOld : s.isAncestor via old = true)
      (ofNew : s.isAncestor new via = true) : Bridges s old new (some via)

theorem Bridges.related {s : Subtags} {tag : Option Tag} (h : Bridges s old new tag) :
    s.related tag (some old) = true ∧ s.related tag (some new) = true := by
  cases h with
  | untyped => simp [Subtags.related, Subtags.compatible]
  | above ofOld ofNew =>
    exact ⟨Subtags.related_some.mpr (.inr (.inr ofOld)), Subtags.related_some.mpr (.inr (.inr ofNew))⟩
  | upward ofOld toNew =>
    exact ⟨Subtags.related_some.mpr (.inr (.inr ofOld)), Subtags.related_some.mpr (.inr (.inl toNew))⟩
  | downward toOld ofNew =>
    exact ⟨Subtags.related_some.mpr (.inr (.inl toOld)), Subtags.related_some.mpr (.inr (.inr ofNew))⟩

/-- A tag that is related to two tags bridges them, unless they are related. -/
theorem related_or_bridges {s : Subtags} {tag : Option Tag}
    (hOld : s.related tag (some old) = true) (hNew : s.related tag (some new) = true) :
    s.related (some old) (some new) = true ∨ Bridges s old new tag := by
  cases tag with
  | none => exact .inr .untyped
  | some via =>
    rw [Subtags.related_some] at hOld hNew ⊢
    rcases hOld with rfl | hToOld | hOfOld
    · exact .inl hNew
    · rcases hNew with rfl | hToNew | hOfNew
      · exact .inl (.inr (.inr hToOld))
      -- one way up meets both tags, so one of them is above the other
      · exact .inl (Subtags.ancestorWithin_linear hToOld hToNew)
      · exact .inr (.downward hToOld hOfNew)
    · rcases hNew with rfl | hToNew | hOfNew
      · exact .inl (.inr (.inl hOfOld))
      · exact .inr (.upward hOfOld hToNew)
      · exact .inr (.above hOfOld hOfNew)

theorem cast_isOk_of_bridges (hPointer : v.pointer = .ok p)
    (hRecord : r.record? p.address = some record) (hTag : record.tag = some old)
    (hBridges : Bridges r.subtags old new p.tag) : (r.cast v (some new)).1.isOk = true := by
  rw [cast_isOk_iff hPointer hRecord, hTag]
  exact hBridges.related

/-- A cast that succeeds takes a registered tag to a new one over the tag of the value, which is
related to both. If the two are not related to each other, the value bridges them: it has no tag, or
one that both descend from, or one on a way up from one to the other. -/
theorem cast_over_related (hPointer : v.pointer = .ok p)
    (hRecord : r.record? p.address = some record) (hFree : record.mode ≠ .pinned)
    (hTag : record.tag = some old) (hOk : (r.cast v new?).1.isOk = true) :
    (r.cast v new?).2.record? p.address = some { record with tag := new? } ∧
      r.subtags.relation (some old) p.tag ≠ .unrelated ∧
      r.subtags.relation p.tag new? ≠ .unrelated ∧
      (r.subtags.relation (some old) new? = .unrelated →
        ∃ new ∈ new?, Bridges r.subtags old new p.tag) := by
  obtain ⟨hOld, hNew⟩ := (cast_isOk_iff hPointer hRecord).mp hOk
  rw [hTag] at hOld
  refine ⟨cast_record? hPointer hRecord hFree hOk, ?_, ?_, ?_⟩
  · rw [← Subtags.related_iff, Subtags.related_comm]
    exact hOld
  · rw [← Subtags.related_iff]
    exact hNew
  · intro hUnrelated
    cases new? with
    | none => simp [Subtags.relation] at hUnrelated
    | some new =>
      refine ⟨new, rfl, ?_⟩
      rcases related_or_bridges hOld hNew with hRelated | hBridges
      · exact absurd hUnrelated ((Subtags.related_iff _ _ _).mp hRelated)
      · exact hBridges

theorem cast_over_related_siblings :
    let r := (empty .standard).run [.defineSubtag ⟨"Dog"⟩ (some ⟨"Animal"⟩),
      .defineSubtag ⟨"Cat"⟩ (some ⟨"Animal"⟩), .registerCounted 4096 (some ⟨"Dog"⟩)]
    let v := Pointer.Value.text "0x1000^Animal"
    (r.cast v (some ⟨"Cat"⟩)).1.isOk = true ∧
      r.subtags.relation (some ⟨"Dog"⟩) (some ⟨"Cat"⟩) = .unrelated ∧
      r.subtags.relation (some ⟨"Dog"⟩) (some ⟨"Animal"⟩) ≠ .unrelated ∧
      r.subtags.relation (some ⟨"Animal"⟩) (some ⟨"Cat"⟩) ≠ .unrelated ∧
      Bridges r.subtags ⟨"Dog"⟩ ⟨"Cat"⟩ (some ⟨"Animal"⟩) := by
  intro r v
  have hPointer : v.pointer = .ok (.wrap 4096 (some ⟨"Animal"⟩)) := by rfl
  have hOk : (r.cast v (some ⟨"Cat"⟩)).1.isOk = true := by decide +kernel
  have hUnrelated : r.subtags.relation (some ⟨"Dog"⟩) (some ⟨"Cat"⟩) = .unrelated := by
    decide +kernel
  have hRecord : r.record? 4096 = some ⟨some ⟨"Dog"⟩, .counted 1⟩ := by decide +kernel
  obtain ⟨-, hOld, hNew, hBridges⟩ := cast_over_related hPointer hRecord (by simp) rfl hOk
  obtain ⟨new, hMem, hBridge⟩ := hBridges hUnrelated
  cases hMem
  exact ⟨hOk, hUnrelated, hOld, hNew, hBridge⟩

/-- A value without a tag takes a registration to a tag that is not related to its own. -/
theorem cast_to_unrelated :
    let r := (empty .standard).run [.register 4096 (some ⟨"Dog"⟩)]
    let v := Pointer.Value.text "0x1000"
    create .standard = .ok (empty .standard) ∧
      v.pointer = .ok (.wrap 4096 none) ∧
      r.record? 4096 = some ⟨some ⟨"Dog"⟩, .uncounted⟩ ∧
      (r.cast v (some ⟨"Car"⟩)).1 = .ok (.wrap 4096 (some ⟨"Car"⟩)) ∧
      (r.cast v (some ⟨"Car"⟩)).2.record? 4096 = some ⟨some ⟨"Car"⟩, .uncounted⟩ ∧
      r.subtags.relation (some ⟨"Dog"⟩) (some ⟨"Car"⟩) = .unrelated := by
  intro r v
  exact ⟨rfl, rfl, by decide +kernel, rfl, by decide +kernel, by decide +kernel⟩

end ArenaRegistry.Registry
