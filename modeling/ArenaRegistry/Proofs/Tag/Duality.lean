import ArenaRegistry.Proofs.Tag.Reachability

/-! The classification of two tags from either side. It looks for the second tag above the first
one before it looks the other way around, so on a cycle each of two tags can be a descendant of the
other. Without cycles, what is a way up from one side is a way down from the other, and two tags
that are compatible either way are one tag. -/

namespace ArenaRegistry.Subtags

variable {s : Subtags} {tag a b : Tag} {tag? expected? : Option Tag}

/-- No tag is reached from itself in one step or more. -/
def Acyclic (s : Subtags) : Prop := ∀ tag, ¬Relation.TransGen s.StepsTo tag tag

/-- Where walks may be as long as there are edges, a cycle shows at one of the subtags on it. -/
theorem acyclic_iff (hDepth : s.size ≤ s.depthLimit) :
    s.Acyclic ↔ ∀ edge ∈ s.edges, s.isAncestor edge.1 edge.1 = false := by
  constructor
  · intro h edge _
    rw [← Bool.not_eq_true, isAncestor_iff_transGen hDepth]
    exact h edge.1
  · intro h tag hCycle
    obtain ⟨sup, hStep, -⟩ := Relation.TransGen.head'_iff.mp hCycle
    obtain ⟨edge, hMem, rfl⟩ := List.mem_map.mp (mem_edges_of_stepsTo hStep)
    have hNever := h edge hMem
    rw [(isAncestor_iff_transGen hDepth).mpr hCycle] at hNever
    cases hNever

/-! ### Either side -/

theorem unrelated_iff (s : Subtags) (tag expected : Option Tag) :
    s.relation tag expected = .unrelated ↔ s.related tag expected = false := by
  rw [← Bool.not_eq_true, related_iff, not_not]

theorem unrelated_comm (s : Subtags) (tag expected : Option Tag) :
    s.relation tag expected = .unrelated ↔ s.relation expected tag = .unrelated := by
  rw [unrelated_iff, unrelated_iff, related_comm]

theorem relation_of_explicitlyCastable (h : s.relation tag? expected? = .explicitlyCastable) :
    s.relation expected? tag? = .implicitlyCastable := by
  have hUp : s.compatible tag? expected? = false := by
    rw [← Bool.not_eq_true, compatible_iff, h]
    decide
  have hRelated : s.related tag? expected? = true := by
    rw [related_iff, h]
    decide
  have hDown : s.compatible expected? tag? = true := by simpa [related, hUp] using hRelated
  rcases (compatible_iff _ _ _).mp hDown with hEqual | hImplicit
  · obtain rfl := (equal_iff _ _ _).mp hEqual
    rw [h] at hEqual
    cases hEqual
  · exact hImplicit

/-! ### Without cycles -/

theorem Acyclic.compatible_antisymm (h : s.Acyclic) (hUp : s.compatible tag? expected? = true)
    (hDown : s.compatible expected? tag? = true) : tag? = expected? := by
  rcases tag? with _ | a
  · rcases expected? with _ | b
    · rfl
    · cases hUp
  rcases expected? with _ | b
  · cases hDown
  simp only [compatible, Bool.or_eq_true, beq_iff_eq] at hUp hDown
  rcases hUp with rfl | hUp
  · rfl
  rcases hDown with rfl | hDown
  · rfl
  -- the way there and the way back are a cycle
  exact absurd ((transGen_of_isAncestor hUp).trans (transGen_of_isAncestor hDown)) (h a)

theorem Acyclic.relation_of_implicitlyCastable (h : s.Acyclic)
    (hImplicit : s.relation tag? expected? = .implicitlyCastable) :
    s.relation expected? tag? = .explicitlyCastable := by
  have hUp : s.compatible tag? expected? = true := (compatible_iff _ _ _).mpr (.inr hImplicit)
  cases hBack : s.relation expected? tag? with
  | explicitlyCastable => rfl
  | unrelated =>
    rw [unrelated_comm, hImplicit] at hBack
    cases hBack
  | equal =>
    obtain rfl := (equal_iff _ _ _).mp hBack
    rw [hImplicit] at hBack
    cases hBack
  | implicitlyCastable =>
    have hDown : s.compatible expected? tag? = true := (compatible_iff _ _ _).mpr (.inr hBack)
    obtain rfl := h.compatible_antisymm hUp hDown
    rw [(equal_iff _ _ _).mpr rfl] at hImplicit
    cases hImplicit

/-- The classification of two tags that may be missing, for any definitions and any limit. They are
classified as equal just if they are the same, as equal or implicitly castable just if they are
compatible, and as unrelated just if they are compatible neither way, so from both sides or from
none; that is the check that a cast makes. Where one side is explicitly castable, the other is
implicitly so. Without cycles that holds the other way around, and tags that are compatible both
ways are the same. -/
theorem relation_duality (s : Subtags) :
    (∀ a b, s.relation a b = .equal ↔ a = b) ∧
      (∀ a b, s.relation a b = .equal ∨ s.relation a b = .implicitlyCastable ↔
        s.compatible a b = true) ∧
      (∀ a b, (s.relation a b = .unrelated ↔ s.relation b a = .unrelated) ∧
        (s.relation a b = .unrelated ↔ ¬s.compatible a b = true ∧ ¬s.compatible b a = true) ∧
        (s.relation a b = .unrelated ↔ s.related a b = false)) ∧
      (∀ a b, s.relation a b = .explicitlyCastable → s.relation b a = .implicitlyCastable) ∧
      (s.Acyclic →
        (∀ a b, s.relation a b = .implicitlyCastable → s.relation b a = .explicitlyCastable) ∧
          ∀ a b, s.compatible a b = true → s.compatible b a = true → a = b) := by
  refine ⟨s.equal_iff, fun a b => (s.compatible_iff a b).symm, fun a b => ?_,
    fun _ _ => relation_of_explicitlyCastable, fun hAcyclic => ⟨?_, ?_⟩⟩
  · refine ⟨s.unrelated_comm a b, ?_, s.unrelated_iff a b⟩
    rw [unrelated_iff, related, Bool.or_eq_false_iff, Bool.not_eq_true, Bool.not_eq_true]
  · exact fun _ _ => hAcyclic.relation_of_implicitlyCastable
  · exact fun _ _ => hAcyclic.compatible_antisymm

/-- A chain and a tag beside it. -/
theorem relation_duality_chain :
    let s := ((withDepth 2).define ⟨"Pup"⟩ (some ⟨"Dog"⟩)).define ⟨"Dog"⟩ (some ⟨"Pet"⟩)
    s.Acyclic ∧ s.relation (some ⟨"Pup"⟩) (some ⟨"Pet"⟩) = .implicitlyCastable ∧
      s.relation (some ⟨"Pet"⟩) (some ⟨"Pup"⟩) = .explicitlyCastable ∧
      s.relation none (some ⟨"Pet"⟩) = .explicitlyCastable ∧
      s.relation (some ⟨"Car"⟩) (some ⟨"Pet"⟩) = .unrelated := by
  intro s
  have hAcyclic : s.Acyclic := (acyclic_iff (by decide +kernel)).mpr (by decide +kernel)
  have hUp : s.relation (some ⟨"Pup"⟩) (some ⟨"Pet"⟩) = .implicitlyCastable := by decide +kernel
  have hApart : s.relation (some ⟨"Pet"⟩) (some ⟨"Car"⟩) = .unrelated := by decide +kernel
  obtain ⟨-, -, hUnrelated, -, hOpposite⟩ := s.relation_duality
  obtain ⟨hDown, -⟩ := hOpposite hAcyclic
  exact ⟨hAcyclic, hUp, hDown _ _ hUp, hDown _ _ rfl, (hUnrelated _ _).1.mp hApart⟩

/-- On a cycle, either of two tags descends from the other. -/
example :
    let s := ((withDepth 1).define ⟨"Dog"⟩ (some ⟨"Pet"⟩)).define ⟨"Pet"⟩ (some ⟨"Dog"⟩)
    s.relation (some ⟨"Dog"⟩) (some ⟨"Pet"⟩) = .implicitlyCastable ∧
      s.relation (some ⟨"Pet"⟩) (some ⟨"Dog"⟩) = .implicitlyCastable := by decide +kernel

end ArenaRegistry.Subtags
