import ArenaRegistry.Arena.Source

/-! A heap that blocks come from. Every block lies above the ones before it, with a gap between, and
holds zeros at first. The limited source refuses large requests and can be told to run dry; the system
source refuses only what no machine has. -/

namespace ArenaRegistry.Arena

/-- A heap: where its next block goes, and how many requests the limited source still grants. -/
structure Heap where
  next : Nat
  budget : Option Nat
deriving DecidableEq, Repr

namespace Heap

def empty : Heap := ⟨0x10000000000, none⟩

/-- The room that a block of so many bytes takes, the gap behind it included. -/
def room (size : Nat) : Nat := (size + 31) / 16 * 16

/-- Grants a block of zeros. -/
def grant (size : Nat) (h : Heap) : Option Grant × Heap :=
  (some ⟨h.next, fun _ => 0⟩, { h with next := h.next + room size })

/-- The largest block of the limited source. -/
def limitedSize : Nat := 0x400000

/-- The size from which on the system source refuses. -/
def systemSize : Nat := 0x1000000000000

/-- A source of blocks up to a limited size, as long as its budget lasts. A request refused for its
size does not count. -/
def limited : BlockSource Heap where
  request size h :=
    if limitedSize < size then (none, h)
    else match h.budget with
      | none => grant size h
      | some 0 => (none, h)
      | some (n + 1) => grant size { h with budget := some n }
  release _ h := h

/-- A source of blocks of any size that a machine may have. -/
def system : BlockSource Heap where
  request size h := if systemSize ≤ size then (none, h) else grant size h
  release _ h := h

/-- The heap whose limited source grants so many requests more. -/
def failAfter (n : Nat) (h : Heap) : Heap := { h with budget := some n }

def stopFailing (h : Heap) : Heap := { h with budget := none }

end Heap

end ArenaRegistry.Arena
