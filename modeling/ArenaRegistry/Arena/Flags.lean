/-! Flags of an arena: a word of 32 bits, the lowest of which asks for a panic where an allocation
fails. -/

namespace ArenaRegistry.Arena

/-- A set of flags. -/
structure Flags where
  bits : UInt32
deriving DecidableEq, Repr

namespace Flags

def none : Flags := ⟨0⟩

/-- Panic where an allocation fails. -/
def panicOnFail : Flags := ⟨1⟩

def union (a b : Flags) : Flags := ⟨a.bits ||| b.bits⟩

def contains (a b : Flags) : Bool := a.bits &&& b.bits == b.bits

/-- The flags of an arena that panics or does not. -/
def ofPanics (panics : Bool) : Flags := if panics then panicOnFail else none

def panics (a : Flags) : Bool := a.contains panicOnFail

theorem panics_ofPanics (b : Bool) : (ofPanics b).panics = b := by cases b <;> decide

end Flags

end ArenaRegistry.Arena
