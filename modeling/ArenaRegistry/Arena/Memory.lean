/-! Runs of bytes, and memory as a byte at every address. Memory changes one span at a time: painting
a span gives each of its bytes a value by its place in the span and leaves all other bytes alone. -/

namespace ArenaRegistry.Arena

/-- The bytes from `start` up to `start + size`. -/
structure Span where
  start : Nat
  size : Nat
deriving DecidableEq, Repr, Inhabited

namespace Span

/-- The address behind the last byte. -/
def stop (s : Span) : Nat := s.start + s.size

def Contains (s : Span) (address : Nat) : Prop := s.start ≤ address ∧ address < s.stop

instance (s : Span) (address : Nat) : Decidable (s.Contains address) :=
  inferInstanceAs (Decidable (_ ∧ _))

/-- No byte is of both spans. -/
def Disjoint (s t : Span) : Prop := s.stop ≤ t.start ∨ t.stop ≤ s.start ∨ s.size = 0 ∨ t.size = 0

instance (s t : Span) : Decidable (s.Disjoint t) := inferInstanceAs (Decidable (_ ∨ _ ∨ _ ∨ _))

/-- Every byte of `s` is one of `t`, and `s` starts inside `t` or at its end. -/
def Within (s t : Span) : Prop := t.start ≤ s.start ∧ s.stop ≤ t.stop

instance (s t : Span) : Decidable (s.Within t) := inferInstanceAs (Decidable (_ ∧ _))

def totalSize : List Span → Nat
  | [] => 0
  | s :: rest => s.size + totalSize rest

theorem Disjoint.symm {s t : Span} (h : s.Disjoint t) : t.Disjoint s := by
  unfold Disjoint at *; omega

/-- Spans that are disjoint share no byte. -/
theorem Disjoint.not_contains {s t : Span} (h : s.Disjoint t) {address : Nat}
    (hs : s.Contains address) : ¬t.Contains address := by
  unfold Disjoint at h; unfold Contains at *; unfold stop at *; omega

theorem Within.contains {s t : Span} (h : s.Within t) {address : Nat} (hs : s.Contains address) :
    t.Contains address := by
  unfold Within at h; unfold Contains at *; omega

end Span

/-- A byte at every address. -/
abbrev Memory := Nat → UInt8

namespace Memory

/-- The memory with the byte at place `i` of a span made `bytes i`. -/
def paint (m : Memory) (span : Span) (bytes : Nat → UInt8) : Memory := fun address =>
  if span.Contains address then bytes (address - span.start) else m address

/-- The memory with `size` bytes copied to `target` from where they start at `source`. -/
def copy (m : Memory) (source target size : Nat) : Memory :=
  m.paint ⟨target, size⟩ fun i => m (source + i)

/-- The memory with a span filled by bytes that count up from `seed`. -/
def fill (m : Memory) (span : Span) (seed : Nat) : Memory :=
  m.paint span fun i => UInt8.ofNat (seed + i)

def read (m : Memory) (span : Span) : List UInt8 :=
  (List.range span.size).map fun i => m (span.start + i)

theorem paint_of_contains {m : Memory} {span : Span} {bytes : Nat → UInt8} {address : Nat}
    (h : span.Contains address) : m.paint span bytes address = bytes (address - span.start) :=
  if_pos h

theorem paint_of_not_contains {m : Memory} {span : Span} {bytes : Nat → UInt8} {address : Nat}
    (h : ¬span.Contains address) : m.paint span bytes address = m address :=
  if_neg h

theorem copy_add {m : Memory} {source target size i : Nat} (h : i < size) :
    m.copy source target size (target + i) = m (source + i) := by
  have hc : Span.Contains ⟨target, size⟩ (target + i) := by
    unfold Span.Contains Span.stop; exact ⟨by simp, by simpa using h⟩
  unfold copy
  rw [paint_of_contains hc]
  simp

end Memory

end ArenaRegistry.Arena
