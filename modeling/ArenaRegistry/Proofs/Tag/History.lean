import ArenaRegistry.Tag.Subtags
import Mathlib.Data.List.Induction
import Mathlib.Data.String.Basic

/-! The definitions and their past. What the direct supertag of a tag is was said by the last change
that settles it: its definition, its removal or the clearing of all. The edges list just these
supertags, in ascending order of the subtags. -/

namespace ArenaRegistry.Subtags

/-- A change of the definitions. -/
inductive Change
  | define (sub : Tag) (sup : Option Tag)
  | undefine (tag : Tag)
  | clear
deriving DecidableEq, Repr

/-- The definitions after a change. -/
def change (s : Subtags) : Change → Subtags
  | .define sub sup => s.define sub sup
  | .undefine tag => (s.undefine tag).2
  | .clear => s.clear

/-- The definitions after a series of changes. -/
def changeAll (s : Subtags) (changes : List Change) : Subtags := changes.foldl change s

namespace Change

/-- The change says what the direct supertag of a tag is from now on. A definition without a
supertag, or of a tag as its own one, says nothing. -/
def Settles (tag : Tag) : Change → Prop
  | define sub (some sup) => sub = tag ∧ sup ≠ tag
  | define _ none => False
  | undefine t => t = tag
  | clear => True

instance (tag : Tag) : DecidablePred (Settles tag)
  | define _ (some _) => inferInstanceAs (Decidable (_ ∧ _))
  | define _ none => inferInstanceAs (Decidable False)
  | undefine _ => inferInstanceAs (Decidable (_ = _))
  | clear => inferInstanceAs (Decidable True)

/-- The supertag that a change gives to the tags that it settles. -/
def given? : Change → Option Tag
  | define _ sup => sup
  | _ => none

/-- The last of a series of changes that settles a tag. -/
def last? (tag : Tag) (changes : List Change) : Option Change :=
  (changes.filter (Settles tag)).getLast?

end Change

/-- Edges in strictly ascending order of the texts of their subtags. -/
def Ascending (edges : List (Tag × Tag)) : Prop :=
  edges.Pairwise fun edge next => edge.1.text < next.1.text

/-- How edges are listed: just those that the definitions have, one for each subtag and ascending. -/
structure Listed (s : Subtags) : Prop where
  mem : ∀ sub sup, (sub, sup) ∈ s.edges ↔ s.supertag? sub = some sup
  once : (s.edges.map Prod.fst).Nodup
  ascending : Ascending s.edges
  length : s.edges.length = s.size
  /-- The size is the number of tags that have a supertag. -/
  size : ∀ tags : List Tag, tags.Nodup → (∀ tag, tag ∈ tags ↔ ∃ sup, s.supertag? tag = some sup) →
    s.size = tags.length

variable {s : Subtags} {sub sup tag : Tag} {edge : Tag × Tag} {edges : List (Tag × Tag)}
  {c : Change}

/-! ### Supertags -/

theorem lookup_cons (edge : Tag × Tag) (edges : List (Tag × Tag)) (tag : Tag) :
    (edge :: edges).lookup tag = if tag = edge.1 then some edge.2 else edges.lookup tag := by
  rw [List.lookup_cons]
  by_cases hSame : tag = edge.1
  · simp [hSame]
  · simp [hSame, beq_false_of_ne hSame]

theorem lookup_insertEdge (sub sup tag : Tag) (edges : List (Tag × Tag)) :
    (insertEdge sub sup edges).lookup tag = if tag = sub then some sup else edges.lookup tag := by
  induction edges with
  | nil => exact lookup_cons (sub, sup) [] tag
  | cons edge rest ih =>
    unfold insertEdge
    split
    next => rw [lookup_cons]
    next =>
      split
      next hSame =>
        rw [lookup_cons, lookup_cons, hSame]
        split <;> rfl
      next hOther =>
        rw [lookup_cons, lookup_cons, ih]
        by_cases hFirst : tag = edge.1
        · rw [if_pos hFirst, if_pos hFirst, if_neg fun h => hOther (h.symm.trans hFirst)]
        · rw [if_neg hFirst, if_neg hFirst]

theorem lookup_remove (tag other : Tag) (edges : List (Tag × Tag)) :
    (edges.filter (·.1 ≠ tag)).lookup other = if other = tag then none else edges.lookup other := by
  induction edges with
  | nil => simp
  | cons edge rest ih =>
    rw [List.filter_cons, lookup_cons]
    by_cases hSame : edge.1 = tag
    · simp only [hSame, ne_eq, not_true_eq_false, decide_false, Bool.false_eq_true, if_false]
      rw [ih]
      split <;> rfl
    · simp only [hSame, ne_eq, not_false_eq_true, decide_true, if_true]
      rw [lookup_cons, ih]
      by_cases hFirst : other = edge.1
      · rw [if_pos hFirst, if_pos hFirst, if_neg fun h => hSame (hFirst.symm.trans h)]
      · rw [if_neg hFirst, if_neg hFirst]

/-- A definition without a supertag is ignored. -/
theorem define_none (s : Subtags) (sub : Tag) : s.define sub none = s := rfl

/-- A definition of a tag as its own supertag is ignored. -/
theorem define_self (s : Subtags) (tag : Tag) : s.define tag (some tag) = s := if_pos rfl

/-- A change says what the supertags of the tags are that it settles, and leaves the others. -/
theorem supertag?_change (s : Subtags) (c : Change) (tag : Tag) :
    (s.change c).supertag? tag = if c.Settles tag then c.given? else s.supertag? tag := by
  cases c with
  | define sub sup? =>
    cases sup? with
    | none => rfl
    | some sup =>
      by_cases hSelf : sub = sup
      · subst hSelf
        have hNot : ¬(Change.define sub (some sub)).Settles tag := fun h => h.2 h.1
        rw [if_neg hNot, change, define_self]
      · have hEdges : (s.change (.define sub (some sup))).edges = insertEdge sub sup s.edges := by
          rw [change, define, if_neg hSelf]
        have hSettles : (Change.define sub (some sup)).Settles tag ↔ tag = sub := by
          constructor
          · exact fun h => h.1.symm
          · rintro rfl
            exact ⟨rfl, Ne.symm hSelf⟩
        rw [supertag?, hEdges, lookup_insertEdge]
        simp only [hSettles]
        rfl
  | undefine t =>
    rw [change, undefine, supertag?, remove, lookup_remove]
    simp only [Change.Settles, eq_comm (a := t)]
    rfl
  | clear => rfl

/-! ### Ascending edges -/

theorem mem_insertEdge (h : edge ∈ insertEdge sub sup edges) : edge = (sub, sup) ∨ edge ∈ edges := by
  induction edges with
  | nil => exact .inl (List.mem_singleton.mp h)
  | cons first rest ih =>
    unfold insertEdge at h
    split at h
    next => exact List.mem_cons.mp h
    next =>
      split at h
      next => exact (List.mem_cons.mp h).imp_right (List.mem_cons_of_mem first)
      next =>
        rcases List.mem_cons.mp h with rfl | hRest
        · exact .inr (List.mem_cons_self ..)
        · exact (ih hRest).imp_right (List.mem_cons_of_mem first)

theorem Ascending.insertEdge (h : Ascending edges) (sub sup : Tag) :
    Ascending (insertEdge sub sup edges) := by
  induction edges with
  | nil => exact List.pairwise_singleton _ _
  | cons first rest ih =>
    obtain ⟨hFirst, hRest⟩ := List.pairwise_cons.mp h
    unfold Subtags.insertEdge
    split
    next hLess =>
      refine List.pairwise_cons.mpr ⟨fun edge hMem => ?_, h⟩
      rcases List.mem_cons.mp hMem with rfl | hLater
      · exact hLess
      · exact String.lt_trans hLess (hFirst edge hLater)
    next hNotLess =>
      split
      next hSame => exact List.pairwise_cons.mpr ⟨hSame ▸ hFirst, hRest⟩
      next hOther =>
        have hLess : first.1.text < sub.text := by
          refine lt_of_le_of_ne (not_lt.mp hNotLess) fun hText => hOther ?_
          exact congrArg Tag.mk hText.symm
        refine List.pairwise_cons.mpr ⟨fun edge hMem => ?_, ih hRest⟩
        rcases mem_insertEdge hMem with rfl | hLater
        · exact hLess
        · exact hFirst edge hLater

theorem Ascending.change (h : Ascending s.edges) (c : Change) : Ascending (s.change c).edges := by
  cases c with
  | define sub sup? =>
    cases sup? with
    | none => exact h
    | some sup =>
      rw [Subtags.change, define]
      split
      · exact h
      · exact h.insertEdge sub sup
  | undefine tag => exact h.sublist List.filter_sublist
  | clear => exact .nil

theorem Ascending.nodup (h : Ascending edges) : (edges.map Prod.fst).Nodup := by
  refine List.pairwise_map.mpr (h.imp fun {edge next} hLess hSame => ?_)
  rw [hSame] at hLess
  exact String.lt_irrefl _ hLess

/-- Where each subtag has one edge, the edges are what a search for their subtags finds. -/
theorem mem_iff_lookup (h : (edges.map Prod.fst).Nodup) :
    (sub, sup) ∈ edges ↔ edges.lookup sub = some sup := by
  constructor
  · intro hMem
    induction edges with
    | nil => cases hMem
    | cons first rest ih =>
      obtain ⟨hFirst, hRest⟩ := List.nodup_cons.mp h
      rw [lookup_cons]
      rcases List.mem_cons.mp hMem with rfl | hLater
      · rw [if_pos rfl]
      · have hOther : sub ≠ first.1 := fun hSame => hFirst (hSame ▸ List.mem_map_of_mem hLater)
        rw [if_neg hOther, ih hRest hLater]
  · intro hLookup
    obtain ⟨before, after, rfl, -⟩ := List.lookup_eq_some_iff.mp hLookup
    exact List.mem_append_right before (List.mem_cons_self ..)

/-! ### A series of changes -/

theorem changeAll_concat (s : Subtags) (changes : List Change) (c : Change) :
    s.changeAll (changes ++ [c]) = (s.changeAll changes).change c := by
  rw [changeAll, List.foldl_append]
  rfl

theorem Change.last?_concat (tag : Tag) (changes : List Change) (c : Change) :
    last? tag (changes ++ [c]) = if c.Settles tag then some c else last? tag changes := by
  rw [last?, List.filter_append, List.getLast?_append]
  by_cases hSettles : c.Settles tag
  · simp [hSettles]
  · simp [hSettles, last?]

theorem Change.settles_of_last? {changes : List Change} (h : last? tag changes = some c) :
    c.Settles tag :=
  of_decide_eq_true (List.mem_filter.mp (List.mem_of_getLast? h)).2

/-- A tag has the supertag that the last change gave that settled it, or the one it had before. -/
theorem supertag?_changeAll (s : Subtags) (changes : List Change) (tag : Tag) :
    (s.changeAll changes).supertag? tag =
      ((Change.last? tag changes).map Change.given?).getD (s.supertag? tag) := by
  induction changes using List.reverseRecOn with
  | nil => rfl
  | append_singleton changes c ih =>
    rw [changeAll_concat, supertag?_change, Change.last?_concat, ih]
    split <;> rfl

theorem ascending_changeAll (h : Ascending s.edges) (changes : List Change) :
    Ascending (s.changeAll changes).edges := by
  induction changes generalizing s with
  | nil => exact h
  | cons c changes ih => exact ih (h.change c)

theorem Ascending.listed (h : Ascending s.edges) : s.Listed where
  mem _ _ := mem_iff_lookup h.nodup
  once := h.nodup
  ascending := h
  length := rfl
  size tags hDistinct hTags := by
    have hSame (tag : Tag) : tag ∈ s.edges.map Prod.fst ↔ tag ∈ tags := by
      rw [hTags tag, List.mem_map]
      constructor
      · rintro ⟨⟨_, sup⟩, hMem, rfl⟩
        exact ⟨sup, (mem_iff_lookup h.nodup).mp hMem⟩
      · rintro ⟨sup, hSup⟩
        exact ⟨(tag, sup), (mem_iff_lookup h.nodup).mpr hSup, rfl⟩
    have hPerm := (List.perm_ext_iff_of_nodup h.nodup hDistinct).mpr hSame
    rw [← hPerm.length_eq, List.length_map]
    rfl

/-- Where a tag had no supertag, it has one just if the last change that settled it was its
definition. -/
theorem supertag?_eq_some_iff {changes : List Change} (h : s.supertag? tag = none) :
    (s.changeAll changes).supertag? tag = some sup ↔
      Change.last? tag changes = some (.define tag (some sup)) := by
  rw [supertag?_changeAll, h]
  constructor
  · intro hSup
    cases hLast : Change.last? tag changes with
    | none => simp [hLast] at hSup
    | some c =>
      have hSettles := Change.settles_of_last? hLast
      rw [hLast] at hSup
      cases c with
      | define sub sup? =>
        obtain rfl : sup? = some sup := hSup
        obtain rfl : sub = tag := hSettles.1
        rfl
      | undefine t => cases hSup
      | clear => cases hSup
  · intro hLast
    rw [hLast]
    rfl

/-- However definitions were made, taken away and cleared since there were none: a tag has a direct
supertag just if the last change that settles the tag was a definition of it, and it is the one given
there, never the tag itself. Definitions without a supertag, or of a tag as its own one, leave all as
it is. Taking a definition away tells whether there was one. The edges list every definition once, in
strictly ascending order of the subtags' texts, and are as many as the size says. -/
theorem last_change_wins (limit : Nat) (changes : List Change) :
    let s := (withDepth limit).changeAll changes
    (∀ tag sup, s.supertag? tag = some sup ↔
        Change.last? tag changes = some (.define tag (some sup))) ∧
      (∀ tag, s.supertag? tag ≠ some tag) ∧
      (∀ tag, s.define tag none = s ∧ s.define tag (some tag) = s) ∧
      (∀ tag, (s.undefine tag).1 = true ↔ ∃ sup, (tag, sup) ∈ s.edges) ∧
      s.Listed := by
  intro s
  have hNone (tag : Tag) : (withDepth limit).supertag? tag = none := rfl
  have hStart : Ascending (withDepth limit).edges := .nil
  have hListed : s.Listed := (ascending_changeAll hStart changes).listed
  refine ⟨fun tag sup => supertag?_eq_some_iff (hNone tag), fun tag hSelf => ?_,
    fun tag => ⟨s.define_none tag, s.define_self tag⟩, fun tag => ?_, hListed⟩
  · -- A definition of the tag as its own supertag would not have settled it.
    have hLast := (supertag?_eq_some_iff (hNone tag)).mp hSelf
    exact (Change.settles_of_last? hLast).2 rfl
  · simp only [hListed.mem]
    exact Option.isSome_iff_exists

/-- A tag is defined anew and then as its own supertag, and another one is taken away. -/
example :
    ((withDepth 2).changeAll [.define ⟨"Dog"⟩ (some ⟨"Pet"⟩), .define ⟨"Cat"⟩ (some ⟨"Pet"⟩),
      .define ⟨"Dog"⟩ (some ⟨"Animal"⟩), .define ⟨"Dog"⟩ (some ⟨"Dog"⟩), .undefine ⟨"Cat"⟩,
      .define ⟨"Ant"⟩ (some ⟨"Animal"⟩), .define ⟨"Ant"⟩ none]).edges =
    [(⟨"Ant"⟩, ⟨"Animal"⟩), (⟨"Dog"⟩, ⟨"Animal"⟩)] := by decide +kernel

end ArenaRegistry.Subtags
