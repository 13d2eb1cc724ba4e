import ArenaRegistry.Tag.Subtags

/-! Walks up the supertags. A longer walk meets whatever a shorter one meets, and two walks in a row
are one walk. Since a tag has at most one direct supertag, of two tags that a walk meets one is met
by a walk from the other. -/

namespace ArenaRegistry.Subtags

variable {s : Subtags} {m n : Nat} {tag a b : Tag}

theorem ancestorWithin_succ : s.ancestorWithin (n + 1) tag a = true ↔
    ∃ sup, s.supertag? tag = some sup ∧ (sup = a ∨ s.ancestorWithin n sup a = true) := by
  rw [ancestorWithin]
  cases s.supertag? tag with
  | none => simp
  | some sup => simp

theorem ancestorWithin_mono (h : s.ancestorWithin n tag a = true) (hLe : n ≤ m) :
    s.ancestorWithin m tag a = true := by
  induction n generalizing tag m with
  | zero => cases h
  | succ n ih =>
    obtain ⟨m, rfl⟩ : ∃ k, m = k + 1 := ⟨m - 1, by omega⟩
    obtain ⟨sup, hSup, hMeets⟩ := ancestorWithin_succ.mp h
    apply ancestorWithin_succ.mpr
    exact ⟨sup, hSup, hMeets.imp_right fun hRest => ih hRest (by omega)⟩

/-- Of two tags on the way up from a tag, one is on the way up from the other. -/
theorem ancestorWithin_linear (hA : s.ancestorWithin n tag a = true)
    (hB : s.ancestorWithin n tag b = true) :
    a = b ∨ s.ancestorWithin n a b = true ∨ s.ancestorWithin n b a = true := by
  induction n generalizing tag with
  | zero => cases hA
  | succ n ih =>
    obtain ⟨sup, hSup, hMeetsA⟩ := ancestorWithin_succ.mp hA
    obtain ⟨sup', hSup', hMeetsB⟩ := ancestorWithin_succ.mp hB
    obtain rfl : sup = sup' := Option.some.inj (hSup.symm.trans hSup')
    -- the first of the two that the walk meets is where the walk to the other goes on from
    rcases hMeetsA with rfl | hRestA
    · rcases hMeetsB with rfl | hRestB
      · exact .inl rfl
      · exact .inr (.inl (ancestorWithin_mono hRestB (by omega)))
    · rcases hMeetsB with rfl | hRestB
      · exact .inr (.inr (ancestorWithin_mono hRestA (by omega)))
      · rcases ih hRestA hRestB with rfl | hUp | hDown
        · exact .inl rfl
        · exact .inr (.inl (ancestorWithin_mono hUp (by omega)))
        · exact .inr (.inr (ancestorWithin_mono hDown (by omega)))

/-! ### Compatible and related tags -/

@[simp] theorem compatible_none (s : Subtags) (tag : Option Tag) :
    s.compatible tag none = true := by
  cases tag <;> rfl

@[simp] theorem compatible_self (s : Subtags) (tag : Option Tag) : s.compatible tag tag = true := by
  cases tag with
  | none => rfl
  | some tag => simp [compatible]

theorem related_comm (s : Subtags) (a b : Option Tag) : s.related a b = s.related b a :=
  Bool.or_comm _ _

@[simp] theorem related_self (s : Subtags) (tag : Option Tag) : s.related tag tag = true := by
  simp [related]

/-- A missing tag is related to every tag. -/
@[simp] theorem related_none (s : Subtags) (tag : Option Tag) : s.related none tag = true := by
  simp [related]

theorem related_some : s.related (some a) (some b) = true ↔
    a = b ∨ s.isAncestor a b = true ∨ s.isAncestor b a = true := by
  simp only [related, compatible, Bool.or_eq_true, beq_iff_eq]
  constructor
  · rintro ((h | h) | (h | h))
    · exact .inl h
    · exact .inr (.inl h)
    · exact .inl h.symm
    · exact .inr (.inr h)
  · rintro (h | h | h)
    · exact .inl (.inl h)
    · exact .inl (.inr h)
    · exact .inr (.inr h)

/-- The classification, told by compatibility alone: the way up from the tag is looked for first. -/
theorem relation_eq (s : Subtags) (tag expected : Option Tag) :
    s.relation tag expected =
      if tag = expected then .equal
      else if s.compatible tag expected then .implicitlyCastable
      else if s.compatible expected tag then .explicitlyCastable
      else .unrelated := by
  cases tag with
  | none => cases expected <;> simp [relation, compatible]
  | some tag =>
    cases expected with
    | none => simp [relation]
    | some expected =>
      by_cases hEq : tag = expected
      · simp [relation, hEq]
      · simp [relation, compatible, hEq, Ne.symm hEq]

/-- Two tags are classified as equal when they are the same, a missing one included. -/
theorem equal_iff (s : Subtags) (tag expected : Option Tag) :
    s.relation tag expected = .equal ↔ tag = expected := by
  rw [relation_eq]
  by_cases hEq : tag = expected
  · simp [hEq]
  · rw [if_neg hEq]
    split
    · simp [hEq]
    · split <;> simp [hEq]

/-- A tag is compatible with an expected one when it is classified as the same or as a descendant. -/
theorem compatible_iff (s : Subtags) (tag expected : Option Tag) :
    s.compatible tag expected = true ↔
      s.relation tag expected = .equal ∨ s.relation tag expected = .implicitlyCastable := by
  rw [relation_eq]
  by_cases hEq : tag = expected
  · simp [hEq]
  · by_cases hUp : s.compatible tag expected = true
    · simp [hEq, hUp]
    · rw [if_neg hEq, if_neg hUp]
      split <;> simp [hUp]

/-- Two tags are related unless they are classified as unrelated. -/
theorem related_iff (s : Subtags) (a b : Option Tag) :
    s.related a b = true ↔ s.relation a b ≠ .unrelated := by
  rw [relation_eq, related, Bool.or_eq_true]
  by_cases hEq : a = b
  · simp [hEq]
  · by_cases hUp : s.compatible a b = true
    · simp [hEq, hUp]
    · by_cases hDown : s.compatible b a = true
      · simp [hEq, hUp, hDown]
      · simp [hEq, hUp, hDown]

end ArenaRegistry.Subtags
