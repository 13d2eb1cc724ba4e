import ArenaRegistry.Pointer.Text

/-! Comparing pointer values, by address first and by tag second. -/

namespace ArenaRegistry.Pointer

/-- The outcome of a comparison. -/
inductive Comparison
  /-- The addresses differ. -/
  | unequal
  /-- The addresses and the tags are the same. -/
  | equal
  /-- The addresses are the same and the tags are not. -/
  | indeterminate
deriving DecidableEq, Repr

namespace Comparison

def word : Comparison → String
  | unequal => "unequal"
  | equal => "equal"
  | indeterminate => "indeterminate"

def toInt : Comparison → Int
  | unequal => 0
  | equal => 1
  | indeterminate => -1

end Comparison

def compare (p q : Pointer) : Comparison :=
  if p.address ≠ q.address then .unequal
  else if p.tag = q.tag then .equal
  else .indeterminate

/-- Compares two values, the first of which is read first. -/
def Value.compare (v w : Value) : Except PointerError Comparison :=
  match v.pointer with
  | .error e => .error e
  | .ok p =>
    match w.pointer with
    | .error e => .error e
    | .ok q => .ok (p.compare q)

end ArenaRegistry.Pointer
