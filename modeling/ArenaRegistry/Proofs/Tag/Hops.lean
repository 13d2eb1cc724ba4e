import ArenaRegistry.Proofs.Tag.Reachability

/-! Walks under a limit. The ancestors of a tag are where its walks end that have at least one step
and no more than the limit allows, whatever the limit is and wherever the definitions run in cycles.
So a higher limit loses no ancestor, and a walk that goes on from the end of another is one walk. -/

namespace ArenaRegistry.Subtags

variable {s : Subtags} {n k l limit : Nat} {a b c : Tag}

/-- The same definitions with walks of another length. -/
def withLimit (s : Subtags) (limit : Nat) : Subtags := { s with depthLimit := limit }

theorem climb_withLimit (s : Subtags) (limit steps : Nat) (tag : Tag) :
    (s.withLimit limit).climb steps tag = s.climb steps tag := by
  induction steps generalizing tag with
  | zero => rfl
  | succ steps ih => exact congrArg (Option.bind (s.supertag? tag)) (funext ih)

/-- A walk has met what lies a step or more behind it, so it is never over before its first step. -/
theorem ancestorWithin_iff_hops :
    s.ancestorWithin n a b = true ↔ ∃ k, 1 ≤ k ∧ k ≤ n ∧ s.climb k a = some b := by
  rw [ancestorWithin_iff_climb]
  constructor
  · rintro ⟨k, hk, hClimb⟩
    exact ⟨k + 1, Nat.succ_pos k, hk, hClimb⟩
  · rintro ⟨k, hPos, hLe, hClimb⟩
    obtain ⟨j, rfl⟩ : ∃ j, k = j + 1 := ⟨k - 1, by omega⟩
    exact ⟨j, hLe, hClimb⟩

theorem isAncestor_iff_hops :
    s.isAncestor a b = true ↔ ∃ k, 1 ≤ k ∧ k ≤ s.depthLimit ∧ s.climb k a = some b :=
  ancestorWithin_iff_hops

theorem isAncestor_withLimit (hLe : s.depthLimit ≤ limit) (h : s.isAncestor a b = true) :
    (s.withLimit limit).isAncestor a b = true := by
  obtain ⟨k, hPos, hk, hClimb⟩ := isAncestor_iff_hops.mp h
  apply isAncestor_iff_hops.mpr
  exact ⟨k, hPos, Nat.le_trans hk hLe, by rw [climb_withLimit, hClimb]⟩

theorem compatible_withLimit {tag expected : Option Tag} (hLe : s.depthLimit ≤ limit)
    (h : s.compatible tag expected = true) :
    (s.withLimit limit).compatible tag expected = true := by
  rcases expected with _ | expected
  · exact compatible_none _ tag
  rcases tag with _ | tag
  · cases h
  rw [compatible, Bool.or_eq_true] at h ⊢
  exact h.imp_right (isAncestor_withLimit hLe)

/-- Two walks, of which the second starts where the first has ended, are one. -/
theorem isAncestor_of_climbs (hFirst : s.climb k a = some b) (hSecond : s.climb l b = some c)
    (hSome : 0 < k + l) (hLe : k + l ≤ s.depthLimit) : s.isAncestor a c = true := by
  have hBoth : s.climb (k + l) a = some c := by rw [climb_add, hFirst, Option.bind_some, hSecond]
  exact isAncestor_iff_hops.mpr ⟨k + l, hSome, hLe, hBoth⟩

/-- For any definitions and any limit, zero included: one tag is an ancestor of another just where
some number of steps up, at least one and no more than the limit, leads from the other to it. Under
a higher limit, ancestors stay ancestors and compatible tags compatible. And where a tag is reached
in at most `i` steps and another from there in at most `j`, and the limit allows `i + j`, the last
one is an ancestor of the first, unless neither way has a step at all. -/
theorem ancestors_by_hops (s : Subtags) :
    (∀ a b, s.isAncestor a b = true ↔ ∃ k, 1 ≤ k ∧ k ≤ s.depthLimit ∧ s.climb k a = some b) ∧
      (∀ limit, s.depthLimit ≤ limit →
        (∀ a b, s.isAncestor a b = true → (s.withLimit limit).isAncestor a b = true) ∧
        ∀ tag expected, s.compatible tag expected = true →
          (s.withLimit limit).compatible tag expected = true) ∧
      ∀ a b c i j k l, i + j ≤ s.depthLimit → k ≤ i → l ≤ j → 0 < k + l →
        s.climb k a = some b → s.climb l b = some c → s.isAncestor a c = true := by
  refine ⟨fun _ _ => isAncestor_iff_hops, fun limit hLe => ⟨?_, ?_⟩, ?_⟩
  · exact fun _ _ => isAncestor_withLimit hLe
  · exact fun _ _ => compatible_withLimit hLe
  · intro a b c i j k l hLimit hk hl hSome hFirst hSecond
    exact isAncestor_of_climbs hFirst hSecond hSome (by omega)

/-- A step into a cycle and once around it, which takes all the steps there are. -/
theorem ancestors_by_hops_cycle :
    let s := (((withDepth 3).define ⟨"Pup"⟩ (some ⟨"Dog"⟩)).define ⟨"Dog"⟩ (some ⟨"Pet"⟩)).define
      ⟨"Pet"⟩ (some ⟨"Dog"⟩)
    s.climb 1 ⟨"Pup"⟩ = some ⟨"Dog"⟩ ∧ s.climb 2 ⟨"Dog"⟩ = some ⟨"Dog"⟩ ∧ 1 + 2 ≤ s.depthLimit ∧
      s.isAncestor ⟨"Pup"⟩ ⟨"Dog"⟩ = true ∧ (s.withLimit 5).isAncestor ⟨"Dog"⟩ ⟨"Dog"⟩ = true := by
  intro s
  have hIn : s.climb 1 ⟨"Pup"⟩ = some ⟨"Dog"⟩ := by decide +kernel
  have hAround : s.climb 2 ⟨"Dog"⟩ = some ⟨"Dog"⟩ := by decide +kernel
  have hSteps : 1 + 2 ≤ s.depthLimit := by decide +kernel
  obtain ⟨hExact, hHigher, hSum⟩ := s.ancestors_by_hops
  refine ⟨hIn, hAround, hSteps, ?_, ?_⟩
  · exact hSum _ _ _ 1 2 1 2 hSteps (by decide) (by decide) (by decide) hIn hAround
  · have hSelf : s.isAncestor ⟨"Dog"⟩ ⟨"Dog"⟩ = true :=
      (hExact _ _).mpr ⟨2, by decide, by decide +kernel, hAround⟩
    exact (hHigher 5 (by decide +kernel)).1 _ _ hSelf

end ArenaRegistry.Subtags
