import ArenaRegistry.Text.Quoted

/-! Tags: the names of pointer types. Two tags are equal when their texts are, and tags are ordered
by text. Where a tag may be missing, the empty tag and the missing one are different things. -/

namespace ArenaRegistry

/-- The name of a pointer type. -/
structure Tag where
  text : String
deriving DecidableEq, Repr

namespace Tag

def empty : Tag := ⟨""⟩

def isEmpty (t : Tag) : Bool := t.text == ""

instance : LT Tag := ⟨fun a b => a.text < b.text⟩

instance (a b : Tag) : Decidable (a < b) := inferInstanceAs (Decidable (a.text < b.text))

/-- A tag as diagnostics show it, its text quoted. -/
def diagnostic (t : Tag) : String := "Tag(" ++ Text.quoted t.text ++ ")"

/-- A tag that may be missing, as diagnostics show it. -/
def diagnostic? : Option Tag → String
  | none => "None"
  | some t => "Some(" ++ t.diagnostic ++ ")"

/-- The text of a tag, which is empty for a missing one. -/
def text? (t : Option Tag) : String := (t.map text).getD ""

theorem isEmpty_iff {t : Tag} : t.isEmpty = true ↔ t = empty := by
  cases t; simp [isEmpty, empty]

end Tag

end ArenaRegistry
