import ArenaRegistry.Pointer.Text
import ArenaRegistry.Registry.Record
import ArenaRegistry.Registry.Settings
import ArenaRegistry.Tag.AtomTable
import ArenaRegistry.Tag.Subtags

/-! The registry of pointers: which addresses are live, what they are tagged as, and how tags relate.
It owns no memory and knows only what its callers tell it. -/

namespace ArenaRegistry

/-- Registered addresses, subtype definitions, interned tags and settings. -/
structure Registry where
  records : Registry.Records
  subtags : Subtags
  atoms : AtomTable
  settings : Registry.Settings
deriving DecidableEq

namespace Registry

/-- The registry without records, definitions or atoms. -/
def empty (settings : Settings) : Registry :=
  ⟨[], Subtags.withDepth settings.depthLimit, ∅, settings⟩

/-- The empty registry under settings that are within their bounds. -/
def create (settings : Settings) : Except PointerError Registry :=
  match settings.validate with
  | .ok () => .ok (empty settings)
  | .error e => .error (.setting e)

/-- The empty registry under the settings that the environment asks for. -/
def ofEnvironment (env : Environment) : Except PointerError Registry :=
  match Settings.ofEnvironment env with
  | .ok settings => create settings
  | .error e => .error (.setting e)

def record? (r : Registry) (address : UInt64) : Option Record := r.records.find? address

def put (r : Registry) (address : UInt64) (record : Record) : Registry :=
  { r with records := r.records.put address record }

def remove (r : Registry) (address : UInt64) : Registry :=
  { r with records := r.records.remove address }

/-- Interns a tag in the atoms of the registry. -/
def intern (r : Registry) (text : String) : Tag × Registry :=
  let (tag, atoms) := r.atoms.intern text
  (tag, { r with atoms })

def size (r : Registry) : Nat := r.records.length

def isEmpty (r : Registry) : Bool := r.records.isEmpty

/-- Makes one tag the direct supertag of another. -/
def defineSubtag (r : Registry) (sub : Tag) (sup : Option Tag) : Registry :=
  { r with subtags := r.subtags.define sub sup }

def removeSubtag (r : Registry) (tag : Tag) : Registry :=
  { r with subtags := r.subtags.remove tag }

/-- Forgets every record and every definition; the atoms stay. -/
def clear (r : Registry) : Registry := { r with records := [], subtags := r.subtags.clear }

def clearNotices (r : Registry) : List Notice :=
  [⟨.debug, "pointer registry: clearing " ++ toString r.size ++ " pointers and " ++
    toString r.subtags.size ++ " subtags"⟩]

/-- Every record, one line each, in the order of registration. -/
def lines (r : Registry) : List String := r.records.map fun (address, record) => record.line address

end Registry

end ArenaRegistry
