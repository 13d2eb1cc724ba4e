/-! Unsigned numbers in positional notation: reading digits in a base up to sixteen, and writing
hexadecimal of a fixed width. A word is a number of at most 64 bits. -/

namespace ArenaRegistry.Text

/-- The value of a hexadecimal digit of either case. -/
def digitValue? (c : Char) : Option Nat :=
  if '0' ≤ c ∧ c ≤ '9' then some (c.toNat - 48)
  else if 'a' ≤ c ∧ c ≤ 'f' then some (c.toNat - 87)
  else if 'A' ≤ c ∧ c ≤ 'F' then some (c.toNat - 55)
  else none

/-- Reads one or more digits of the given base, highest first. -/
def number? (base : Nat) (digits : List Char) : Option Nat :=
  if digits.isEmpty then none
  else digits.foldlM (fun n c => ((digitValue? c).filter (· < base)).map (base * n + ·)) 0

def lastWord : Nat := 0xffffffffffffffff

/-- Reads one or more digits whose number fits in a word. -/
def wordInBase? (base : Nat) (digits : List Char) : Option Nat :=
  (number? base digits).filter (· ≤ lastWord)

/-- Reads a decimal word, which one plus sign may precede. -/
def word? (s : String) : Option Nat :=
  match s.toList with
  | '+' :: digits => wordInBase? 10 digits
  | digits => wordInBase? 10 digits

/-- The lower-case hexadecimal digit of a value below sixteen. -/
def hexDigit (n : Nat) : Char := Char.ofNat (if n < 10 then 48 + n else 87 + n)

/-- The lowest `width` hexadecimal digits of `n`, highest first. -/
def hexPadded : (width : Nat) → (n : Nat) → List Char
  | 0, _ => []
  | width + 1, n => hexPadded width (n / 16) ++ [hexDigit (n % 16)]

/-- The hexadecimal digits of `n` without leading zeros. -/
def hex (n : Nat) : List Char := Nat.toDigits 16 n

theorem length_hexPadded (width n : Nat) : (hexPadded width n).length = width := by
  induction width generalizing n with
  | zero => rfl
  | succ width ih => simp [hexPadded, ih]

theorem digitValue?_hexDigit {n : Nat} (h : n < 16) : digitValue? (hexDigit n) = some n := by
  revert n; decide

theorem mem_hexPadded {width n : Nat} {c : Char} (h : c ∈ hexPadded width n) :
    ∃ d < 16, c = hexDigit d := by
  induction width generalizing n with
  | zero => cases h
  | succ width ih =>
    rcases List.mem_append.mp h with hHigh | hLow
    · exact ih hHigh
    · exact ⟨n % 16, Nat.mod_lt n (by decide), List.mem_singleton.mp hLow⟩

end ArenaRegistry.Text
