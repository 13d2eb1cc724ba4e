/-! Data as indented text, in the notation of JSON: two blanks for each level, one entry a line, and
nothing between the brackets of what is empty. -/

namespace ArenaRegistry.Text

/-- Numbers in lists and in records of named fields. -/
inductive Tree
  | null
  | number (n : Nat)
  | list (items : List Tree)
  | record (fields : List (String × Tree))

namespace Tree

/-- The start of a line at a level. -/
def lineStart (level : Nat) : String := "\n" ++ String.ofList (List.replicate (2 * level) ' ')

mutual

/-- The text of a tree that stands at a level. -/
def render (level : Nat) : Tree → String
  | null => "null"
  | number n => toString n
  | list [] => "[]"
  | list (item :: rest) =>
    "[" ++ lineStart (level + 1) ++ render (level + 1) item ++ renderItems (level + 1) rest ++
      lineStart level ++ "]"
  | record [] => "\x7b\x7d"
  | record ((name, value) :: rest) =>
    "\x7b" ++ lineStart (level + 1) ++ "\"" ++ name ++ "\": " ++ render (level + 1) value ++
      renderFields (level + 1) rest ++ lineStart level ++ "\x7d"

/-- The text of the items that follow the first one. -/
def renderItems (level : Nat) : List Tree → String
  | [] => ""
  | item :: rest => "," ++ lineStart level ++ render level item ++ renderItems level rest

/-- The text of the fields that follow the first one. -/
def renderFields (level : Nat) : List (String × Tree) → String
  | [] => ""
  | (name, value) :: rest =>
    "," ++ lineStart level ++ "\"" ++ name ++ "\": " ++ render level value ++
      renderFields level rest

end

def text (t : Tree) : String := t.render 0

end Tree

end ArenaRegistry.Text
