import ArenaRegistry.Tag.Basic

/-! The table of interned texts. Interning a text enters it once; the table counts how often it was
found there and how often it was new. -/

namespace ArenaRegistry

/-- Interned tags in the order of their first interning, and the counts of found and new ones. An
interning adds one to one of the counts, so that neither is more than a word of 64 bits before `2 ^ 64`
internings, which no run comes to. -/
structure AtomTable where
  atoms : List Tag
  hits : Nat
  misses : Nat
deriving DecidableEq, Repr

structure AtomStats where
  count : Nat
  hits : Nat
  misses : Nat
deriving DecidableEq, Repr

/-- The share of internings that found their text, zero before the first one. -/
def AtomStats.hitRate (s : AtomStats) : Float :=
  if s.hits + s.misses = 0 then 0.0
  else Float.ofNat s.hits / Float.ofNat (s.hits + s.misses)

namespace AtomTable

def empty : AtomTable := ⟨[], 0, 0⟩

instance : EmptyCollection AtomTable := ⟨empty⟩

/-- Looks a text up, without counting. -/
def get? (table : AtomTable) (text : String) : Option Tag :=
  table.atoms.find? (·.text == text)

def contains (table : AtomTable) (text : String) : Bool := (table.get? text).isSome

/-- Interns a text: a known one counts as a hit, a new one is entered and counts as a miss. -/
def intern (table : AtomTable) (text : String) : Tag × AtomTable :=
  match table.get? text with
  | some tag => (tag, { table with hits := table.hits + 1 })
  | none => (⟨text⟩, { table with atoms := table.atoms ++ [⟨text⟩], misses := table.misses + 1 })

def size (table : AtomTable) : Nat := table.atoms.length

def isEmpty (table : AtomTable) : Bool := table.atoms.isEmpty

/-- Every atom, in the order of the first internings. -/
def toList (table : AtomTable) : List Tag := table.atoms

/-- Every interned text, in ascending order. -/
def sortedTexts (table : AtomTable) : List String :=
  (table.toList.map (·.text)).mergeSort (fun a b => decide (a ≤ b))

def stats (table : AtomTable) : AtomStats := ⟨table.size, table.hits, table.misses⟩

/-- Drops every atom and starts counting anew. -/
def clear (_ : AtomTable) : AtomTable := ∅

end AtomTable

/-- A call on an atom table. -/
inductive AtomTable.Op
  | intern (text : String)
  | get (text : String)
  | contains (text : String)
  | iterate
  | stats
  | clear
deriving DecidableEq, Repr

/-- The answer of a call on an atom table. -/
inductive AtomTable.Reply
  | tag (t : Tag)
  | tag? (t : Option Tag)
  | flag (b : Bool)
  | texts (ts : List String)
  | stats (s : AtomStats)
  | done
deriving DecidableEq, Repr

/-- Carries out one call. -/
def AtomTable.step (table : AtomTable) : AtomTable.Op → AtomTable.Reply × AtomTable
  | .intern text => let (tag, table') := table.intern text; (.tag tag, table')
  | .get text => (.tag? (table.get? text), table)
  | .contains text => (.flag (table.contains text), table)
  | .iterate => (.texts table.sortedTexts, table)
  | .stats => (.stats table.stats, table)
  | .clear => (.done, table.clear)

end ArenaRegistry
