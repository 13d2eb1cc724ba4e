import ArenaRegistry.Tag.Basic
import ArenaRegistry.Notice

/-! The subtype relation between tags. Every tag has at most one direct supertag. Walking up stops
after a fixed number of steps, so that a cycle of definitions does no harm. A missing tag stands for
an untyped pointer: any tag may be used where none is expected, and none where a tag is expected
only by an explicit cast. -/

namespace ArenaRegistry

/-- Direct supertags, and how far a walk up may go. The table is kept as the listing that shows it,
in ascending order of the subtags: a definition enters its edge in its place, so that a listing has
nothing left to sort. -/
structure Subtags where
  edges : List (Tag × Tag)
  depthLimit : Nat
deriving DecidableEq, Repr

/-- How a pointer's tag relates to an expected tag. -/
inductive TagRelation
  /-- Neither tag descends from the other. -/
  | unrelated
  | equal
  /-- The tag descends from the expected one. -/
  | implicitlyCastable
  /-- The expected tag descends from the tag. -/
  | explicitlyCastable
deriving DecidableEq, Repr

def TagRelation.word : TagRelation → String
  | unrelated => "unrelated"
  | equal => "equal"
  | implicitlyCastable => "implicitly_castable"
  | explicitlyCastable => "explicitly_castable"

namespace Subtags

/-- No definitions, with walks of at most `depthLimit` steps. -/
def withDepth (depthLimit : Nat) : Subtags := ⟨[], depthLimit⟩

/-- Enters an edge in its place, or puts it where the subtag's edge was. -/
def insertEdge (sub sup : Tag) : List (Tag × Tag) → List (Tag × Tag)
  | [] => [(sub, sup)]
  | edge :: rest =>
    if sub < edge.1 then (sub, sup) :: edge :: rest
    else if sub = edge.1 then (sub, sup) :: rest
    else edge :: insertEdge sub sup rest

def supertag? (s : Subtags) (tag : Tag) : Option Tag := s.edges.lookup tag

/-- Makes `sup` the direct supertag of `sub`. A missing supertag, or a tag as its own supertag, is
ignored. -/
def define (s : Subtags) (sub : Tag) : (sup : Option Tag) → Subtags
  | none => s
  | some sup => if sub = sup then s else { s with edges := insertEdge sub sup s.edges }

/-- The notice that a definition leaves when it takes the place of an earlier one. -/
def defineNotices (s : Subtags) (sub : Tag) : (sup : Option Tag) → List Notice
  | none => []
  | some sup =>
    if sub = sup then []
    else match s.supertag? sub with
      | none => []
      | some old =>
        [⟨.debug, "subtag " ++ sub.text ++ ": supertag " ++ old.text ++ " replaced by " ++ sup.text⟩]

def remove (s : Subtags) (tag : Tag) : Subtags :=
  { s with edges := s.edges.filter (·.1 ≠ tag) }

def defines (s : Subtags) (tag : Tag) : Bool := (s.supertag? tag).isSome

/-- Takes the definition of a tag away and tells whether there was one. -/
def undefine (s : Subtags) (tag : Tag) : Bool × Subtags := (s.defines tag, s.remove tag)

def size (s : Subtags) : Nat := s.edges.length

def isEmpty (s : Subtags) : Bool := s.edges.isEmpty

def clear (s : Subtags) : Subtags := { s with edges := [] }

/-- Whether `ancestor` is met within `steps` steps up from `tag`. -/
def ancestorWithin (s : Subtags) : (steps : Nat) → (tag ancestor : Tag) → Bool
  | 0, _, _ => false
  | steps + 1, tag, ancestor =>
    match s.supertag? tag with
    | none => false
    | some sup => sup == ancestor || s.ancestorWithin steps sup ancestor

/-- Whether `ancestor` is a strict supertag of `tag` within the depth limit. -/
def isAncestor (s : Subtags) (tag ancestor : Tag) : Bool :=
  s.ancestorWithin s.depthLimit tag ancestor

/-- Whether a pointer with the tag may be used where `expected` is: none is expected, or the tag is
the expected one or has it as an ancestor. -/
def compatible (s : Subtags) : (tag expected : Option Tag) → Bool
  | _, none => true
  | none, some _ => false
  | some tag, some expected => tag == expected || s.isAncestor tag expected

/-- Whether the tags are compatible one way or the other. -/
def related (s : Subtags) (a b : Option Tag) : Bool := s.compatible a b || s.compatible b a

/-- How the tag relates to the expected one. -/
def relation (s : Subtags) : (tag expected : Option Tag) → TagRelation
  | none, none => .equal
  | some _, none => .implicitlyCastable
  | none, some _ => .explicitlyCastable
  | some tag, some expected =>
    if tag = expected then .equal
    else if s.isAncestor tag expected then .implicitlyCastable
    else if s.isAncestor expected tag then .explicitlyCastable
    else .unrelated

end Subtags

end ArenaRegistry
