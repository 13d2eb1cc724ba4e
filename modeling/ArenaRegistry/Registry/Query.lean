import ArenaRegistry.Registry.Check

/-! What can be asked about a registry: its pointers in order, what is known about a value, and how
many records there are of each mode. -/

namespace ArenaRegistry.Registry

/-- Whether a record belongs to a listing: all do without a filter, the untagged ones under the empty
tag, and the ones with exactly the tag otherwise. -/
def listedUnder (filter : Option Tag) (record : Record) : Bool :=
  match filter with
  | none => true
  | some tag => if tag.isEmpty then record.tag.isNone else record.tag == some tag

/-- The registered pointers that a filter lets through, in the order of registration. -/
def enumerate (r : Registry) (filter : Option Tag) : List Pointer :=
  (r.records.filter fun (_, record) => listedUnder filter record).map
    fun (address, record) => record.pointer address

/-- How the tag of a value agrees with its registration. -/
inductive Agreement
  | exact
  | derived
  | mismatch
deriving DecidableEq, Repr

def Agreement.word : Agreement → String
  | exact => "exact"
  | derived => "derived"
  | mismatch => "mismatch"

/-- The agreement of a registered tag that relates to the tag of a value in the given way. -/
def Agreement.ofRelation : TagRelation → Agreement
  | .equal => exact
  | .implicitlyCastable => derived
  | _ => mismatch

/-- A value taken apart: its pointer, the relation of its tag to an expected one, and the status of
its address under its own tag. -/
structure Dissection where
  pointer : Pointer
  relation : TagRelation
  status : Status
deriving DecidableEq

/-- What is known about a value: its tag, and the record of its address with the agreement of the
two. -/
structure Info where
  tag : Option Tag
  registration : Option (Record × Agreement)
deriving DecidableEq

/-- The short name of the mode that a value is registered in. -/
def Info.label (i : Info) : String :=
  match i.registration with
  | none => "none"
  | some (record, _) => record.mode.label

def dissect (r : Registry) (v : Pointer.Value) (expected : Option Tag) :
    Except PointerError Dissection := do
  let p ← v.pointer
  return ⟨p, r.subtags.relation p.tag expected, r.status p.address p.tag⟩

def info (r : Registry) (v : Pointer.Value) : Except PointerError Info := do
  let p ← v.pointer
  return ⟨p.tag, (r.record? p.address).map fun record =>
    (record, .ofRelation (r.subtags.relation record.tag p.tag))⟩

/-- How many entries a registry has of each kind. -/
structure Stats where
  pointers : Nat
  uncounted : Nat
  counted : Nat
  pinned : Nat
  subtags : Nat
  atoms : Nat
deriving DecidableEq, Repr

/-- The number of records in the same mode as the given one. -/
def countMode (r : Registry) (mode : Mode) : Nat :=
  r.records.countP fun (_, record) => record.mode.same mode

def stats (r : Registry) : Stats where
  pointers := r.size
  uncounted := r.countMode .uncounted
  counted := r.countMode (.counted 0)
  pinned := r.countMode .pinned
  subtags := r.subtags.size
  atoms := r.atoms.size

end ArenaRegistry.Registry
