/-! Sizes in bytes. Everything an arena hands out is a whole number of grains of eight bytes, so a
request is rounded up to the next grain and a cut is rounded down to the last one. -/

namespace ArenaRegistry.Size

/-- Allocations are carved in multiples of this many bytes. -/
def grain : Nat := 8

/-- The alignment at which backing blocks are asked for. -/
def blockAlignment : Nat := 16

/-- The largest size that may be requested: a signed word, less the alignment of its block. -/
def largest : Nat := 0x7fffffffffffffff - blockAlignment

/-- The least whole number of grains that holds `n` bytes. -/
def roundUp (n : Nat) : Nat := (n + 7) / 8 * 8

/-- The most whole grains that `n` bytes hold. -/
def roundDown (n : Nat) : Nat := n / 8 * 8

def IsWhole (n : Nat) : Prop := n % 8 = 0

instance (n : Nat) : Decidable (IsWhole n) := inferInstanceAs (Decidable (n % 8 = 0))

/-- `roundUp`, refused for a size that may not be requested. -/
def roundUp? (n : Nat) : Option Nat := if n ≤ largest then some (roundUp n) else none

theorem le_roundUp (n : Nat) : n ≤ roundUp n := by unfold roundUp; omega

theorem isWhole_roundUp (n : Nat) : IsWhole (roundUp n) := by unfold IsWhole roundUp; omega

theorem isWhole_roundDown (n : Nat) : IsWhole (roundDown n) := by unfold IsWhole roundDown; omega

theorem roundUp_of_isWhole {n : Nat} (h : IsWhole n) : roundUp n = n := by
  unfold IsWhole at h; unfold roundUp; omega

end ArenaRegistry.Size
