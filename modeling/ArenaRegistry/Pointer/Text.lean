import ArenaRegistry.Pointer.Error

/-! Reading pointers. A text is the name of the null pointer, or `0x` with one or more hexadecimal
digits of a word, and then nothing or a caret and a tag. A value is given as such a text or as a
pointer that has been built already. -/

namespace ArenaRegistry

namespace Pointer

/-- Reads the digits of an address, either case and any number of leading zeros. -/
def address? (digits : List Char) : Option UInt64 :=
  (Text.wordInBase? 16 digits).map UInt64.ofNat

/-- Reads what follows `0x`: the digits up to the first caret, and the tag behind it. -/
def body? (body : List Char) : Option Pointer :=
  match body.span (· ≠ '^') with
  | (digits, []) => (address? digits).map (wrap · none)
  | (digits, _ :: tag) => (address? digits).map (wrap · (some ⟨String.ofList tag⟩))

/-- Reads the characters of a pointer. -/
def ofChars? : List Char → Option Pointer
  | ['N', 'U', 'L', 'L'] => some null
  | '0' :: 'x' :: body => body? body
  | _ => none

def parse (s : String) : Except PointerError Pointer :=
  match ofChars? s.toList with
  | some p => .ok p
  | none => .error (.format s)

/-- A pointer value as a caller gives it. -/
inductive Value
  /-- The text of a pointer, not yet read. -/
  | text (s : String)
  /-- A pointer. -/
  | built (p : Pointer)
deriving DecidableEq

/-- The pointer that a value stands for. -/
def Value.pointer : Value → Except PointerError Pointer
  | .text s => parse s
  | .built p => .ok p

/-- The address of a value, whatever its tag. -/
def Value.address (v : Value) : Except PointerError UInt64 := v.pointer.map (·.address)

def Value.tag (v : Value) : Except PointerError (Option Tag) := v.pointer.map (·.tag)

end Pointer

end ArenaRegistry
