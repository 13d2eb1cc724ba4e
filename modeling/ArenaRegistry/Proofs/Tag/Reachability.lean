import ArenaRegistry.Proofs.Tag.Walks
import Mathlib.Data.Finset.Card
import Mathlib.Data.Nat.Find
import Mathlib.Logic.Relation

/-! Walks that are long enough. A walk of exactly so many steps ends in one place, if it does not end
early. The first time that it comes to a tag, it has left each tag on its way once, and each of them
has an edge of its own. So a walk of as many steps as there are edges meets every tag that can be
reached at all, around a cycle too. -/

namespace ArenaRegistry.Subtags

variable {s : Subtags} {m n k : Nat} {tag a b c : Tag}

/-- The first tag has the second one as its direct supertag. -/
def StepsTo (s : Subtags) (sub sup : Tag) : Prop := s.supertag? sub = some sup

/-- Where a walk of exactly so many steps up from a tag ends, unless it comes to an end before. -/
def climb (s : Subtags) : (steps : Nat) → Tag → Option Tag
  | 0, tag => some tag
  | steps + 1, tag => (s.supertag? tag).bind (s.climb steps)

theorem climb_add (s : Subtags) (m n : Nat) (tag : Tag) :
    s.climb (m + n) tag = (s.climb m tag).bind (s.climb n) := by
  induction m generalizing tag with
  | zero => rw [Nat.zero_add]; rfl
  | succ m ih =>
    rw [Nat.add_right_comm, climb, climb, Option.bind_assoc]
    exact congrArg _ (funext ih)

/-- A walk of so many steps meets what is reached by some number of them. -/
theorem ancestorWithin_iff_climb :
    s.ancestorWithin n tag a = true ↔ ∃ k < n, s.climb (k + 1) tag = some a := by
  induction n generalizing tag with
  | zero => simp [ancestorWithin]
  | succ n ih =>
    rw [ancestorWithin_succ]
    constructor
    · rintro ⟨sup, hSup, rfl | hRest⟩
      · exact ⟨0, Nat.succ_pos n, by simp [climb, hSup]⟩
      · obtain ⟨k, hk, hClimb⟩ := ih.mp hRest
        exact ⟨k + 1, Nat.succ_lt_succ hk, by rw [climb, hSup]; exact hClimb⟩
    · rintro ⟨k, hk, hClimb⟩
      obtain ⟨sup, hSup, hRest⟩ := Option.bind_eq_some_iff.mp hClimb
      refine ⟨sup, hSup, ?_⟩
      cases k with
      | zero => exact .inl (Option.some.inj hRest)
      | succ k => exact .inr (ih.mpr ⟨k, Nat.lt_of_succ_lt_succ hk, hRest⟩)

theorem transGen_iff_climb :
    Relation.TransGen s.StepsTo a b ↔ ∃ k, s.climb (k + 1) a = some b := by
  constructor
  · intro h
    induction h using Relation.TransGen.head_induction_on with
    | single hStep => exact ⟨0, by rw [climb, hStep]; rfl⟩
    | head hStep _ ih =>
      obtain ⟨k, hClimb⟩ := ih
      exact ⟨k + 1, by rw [climb, hStep]; exact hClimb⟩
  · rintro ⟨k, hClimb⟩
    induction k generalizing a with
    | zero =>
      obtain ⟨sup, hSup, hEnd⟩ := Option.bind_eq_some_iff.mp hClimb
      obtain rfl : sup = b := Option.some.inj hEnd
      exact .single hSup
    | succ k ih =>
      obtain ⟨sup, hSup, hRest⟩ := Option.bind_eq_some_iff.mp hClimb
      exact .head hSup (ih hRest)

/-! ### The shortest walk -/

theorem mem_edges_of_stepsTo (h : s.StepsTo a b) : a ∈ s.edges.map Prod.fst := by
  obtain ⟨l₁, l₂, hEdges, -⟩ := List.lookup_eq_some_iff.mp h
  simp [hEdges]

/-- A walk that goes on leaves the tag that it has come to. -/
theorem mem_edges_of_climb (h : s.climb n tag = some a) (hk : k < n) :
    ∃ t ∈ s.edges.map Prod.fst, s.climb k tag = some t := by
  obtain ⟨j, rfl⟩ : ∃ j, n = k + (j + 1) := ⟨n - k - 1, by omega⟩
  rw [climb_add] at h
  obtain ⟨t, hAt, hRest⟩ := Option.bind_eq_some_iff.mp h
  obtain ⟨sup, hSup, -⟩ := Option.bind_eq_some_iff.mp hRest
  exact ⟨t, mem_edges_of_stepsTo hSup, hAt⟩

/-- The walk that comes to a tag for the first time has been nowhere twice. -/
theorem climb_injOn (h : s.climb (n + 1) tag = some a)
    (hFirst : ∀ k < n, s.climb (k + 1) tag ≠ some a) :
    Set.InjOn (s.climb · tag) (Finset.range (n + 1)) := by
  have hDistinct : ∀ i j, i < j → j ≤ n → s.climb i tag ≠ s.climb j tag := by
    intro i j hij hj hSame
    -- The way from the one visit to the next can be left out.
    refine hFirst (i + (n - j)) (by omega) ?_
    calc s.climb (i + (n - j) + 1) tag
        = (s.climb i tag).bind (s.climb (n - j + 1)) := s.climb_add i (n - j + 1) tag
      _ = (s.climb j tag).bind (s.climb (n - j + 1)) := by rw [hSame]
      _ = s.climb (n + 1) tag := by rw [← climb_add]; congr 1; omega
      _ = some a := h
  intro i hi j hj hSame
  have hi := Finset.mem_range.mp hi
  have hj := Finset.mem_range.mp hj
  rcases Nat.lt_trichotomy i j with hLess | hEq | hLess
  · exact absurd hSame (hDistinct i j hLess (by omega))
  · exact hEq
  · exact absurd hSame.symm (hDistinct j i hLess (by omega))

/-- The first visit to a tag takes no more steps than there are edges. -/
theorem lt_size_of_first_climb (h : s.climb (n + 1) tag = some a)
    (hFirst : ∀ k < n, s.climb (k + 1) tag ≠ some a) : n < s.size := by
  have hMaps : Set.MapsTo (s.climb · tag) (Finset.range (n + 1))
      ((s.edges.map Prod.fst).map some).toFinset := by
    intro k hk
    obtain ⟨t, hMem, hAt⟩ := mem_edges_of_climb h (Finset.mem_range.mp hk)
    simp only [hAt]
    exact List.mem_toFinset.mpr (List.mem_map_of_mem hMem)
  have hCard := Finset.card_le_card_of_injOn _ hMaps (climb_injOn h hFirst)
  have hKeys := List.toFinset_card_le ((s.edges.map Prod.fst).map some)
  rw [Finset.card_range] at hCard
  simp only [List.length_map] at hKeys
  exact Nat.lt_of_lt_of_le (Nat.lt_of_succ_le hCard) hKeys

/-- Whatever the limit, a walk meets only what can be reached. -/
theorem transGen_of_isAncestor (h : s.isAncestor a b = true) :
    Relation.TransGen s.StepsTo a b := by
  obtain ⟨k, -, hClimb⟩ := ancestorWithin_iff_climb.mp h
  exact transGen_iff_climb.mpr ⟨k, hClimb⟩

theorem isAncestor_iff_transGen (hDepth : s.size ≤ s.depthLimit) :
    s.isAncestor a b = true ↔ Relation.TransGen s.StepsTo a b := by
  refine ⟨transGen_of_isAncestor, fun hReached => ?_⟩
  rw [transGen_iff_climb] at hReached
  rw [isAncestor, ancestorWithin_iff_climb]
  classical
  have hFirst := fun k (hk : k < Nat.find hReached) => Nat.find_min hReached hk
  have hShort := lt_size_of_first_climb (Nat.find_spec hReached) hFirst
  exact ⟨Nat.find hReached, Nat.lt_of_lt_of_le hShort hDepth, Nat.find_spec hReached⟩

theorem compatible_iff_reflTransGen (hDepth : s.size ≤ s.depthLimit) :
    s.compatible (some a) (some b) = true ↔ Relation.ReflTransGen s.StepsTo a b := by
  rw [compatible, Bool.or_eq_true, beq_iff_eq, isAncestor_iff_transGen hDepth,
    Relation.reflTransGen_iff_eq_or_transGen, eq_comm]

theorem compatible_trans (hDepth : s.size ≤ s.depthLimit) {a b c : Option Tag}
    (hFirst : s.compatible a b = true) (hSecond : s.compatible b c = true) :
    s.compatible a c = true := by
  rcases c with _ | c
  · exact s.compatible_none a
  rcases b with _ | b
  · cases hSecond
  rcases a with _ | a
  · cases hFirst
  rw [compatible_iff_reflTransGen hDepth] at hFirst hSecond ⊢
  exact hFirst.trans hSecond

/-- Where walks may be as long as there are edges, a walk meets exactly what can be reached by one
step or more, however the definitions run in cycles. So compatibility is a preorder on tags that may
be missing: a missing one accepts all and is accepted by itself only. -/
theorem reaches_of_deep (s : Subtags) (hDepth : s.size ≤ s.depthLimit) :
    (∀ tag ancestor,
        s.isAncestor tag ancestor = true ↔ Relation.TransGen s.StepsTo tag ancestor) ∧
      (∀ tag, s.compatible tag tag = true) ∧
      (∀ a b c, s.compatible a b = true → s.compatible b c = true → s.compatible a c = true) ∧
      (∀ tag, s.compatible tag none = true) ∧
      ∀ expected, s.compatible none expected = true ↔ expected = none := by
  refine ⟨fun _ _ => isAncestor_iff_transGen hDepth, s.compatible_self,
    fun _ _ _ => compatible_trans hDepth, s.compatible_none, fun expected => ?_⟩
  cases expected with
  | none => exact ⟨fun _ => rfl, fun _ => s.compatible_none none⟩
  | some tag => exact ⟨nofun, nofun⟩

/-- A cycle of two tags with a way into it, and walks of just as many steps as there are edges. -/
theorem reaches_of_deep_cycle :
    let s := (((withDepth 3).define ⟨"Pup"⟩ (some ⟨"Dog"⟩)).define ⟨"Dog"⟩ (some ⟨"Pet"⟩)).define
      ⟨"Pet"⟩ (some ⟨"Dog"⟩)
    s.size ≤ s.depthLimit ∧ Relation.TransGen s.StepsTo ⟨"Pup"⟩ ⟨"Pet"⟩ ∧
      Relation.TransGen s.StepsTo ⟨"Dog"⟩ ⟨"Dog"⟩ ∧
      ¬Relation.TransGen s.StepsTo ⟨"Pup"⟩ ⟨"Pup"⟩ := by
  intro s
  have hDepth : s.size ≤ s.depthLimit := by decide +kernel
  obtain ⟨hReaches, -⟩ := s.reaches_of_deep hDepth
  refine ⟨hDepth, ?_, ?_, ?_⟩
  · exact (hReaches _ _).mp (by decide +kernel)
  · exact (hReaches _ _).mp (by decide +kernel)
  · exact mt (hReaches _ _).mpr (by decide +kernel)

/-- With one step less than there are edges, the end of a chain is out of reach. -/
example : (((withDepth 1).define ⟨"Pup"⟩ (some ⟨"Dog"⟩)).define ⟨"Dog"⟩ (some ⟨"Pet"⟩)).isAncestor
    ⟨"Pup"⟩ ⟨"Pet"⟩ = false := by decide +kernel

end ArenaRegistry.Subtags
