import ArenaRegistry.Pointer.Text
import Mathlib.Algebra.Group.Nat.Defs
import Mathlib.Data.List.TakeDrop
import Mathlib.Data.List.TakeWhile

/-! The text of a pointer tells the pointer. An address is written in digits of which none is a
caret, so the first caret of a text is the one that the tag stands behind, whatever the tag is. -/

namespace ArenaRegistry

/-! ### Digits -/

namespace Text

/-- Reading the digits after others gives the lowest places of the number that was written. -/
theorem foldlM_hexPadded (acc width n : Nat) :
    (hexPadded width n).foldlM
        (fun n c => ((digitValue? c).filter (· < 16)).map (16 * n + ·)) acc =
      some (acc * 16 ^ width + n % 16 ^ width) := by
  induction width generalizing n with
  | zero => simp [hexPadded, Nat.mod_one]
  | succ width ih =>
    have hDigit : n % 16 < 16 := Nat.mod_lt n (by decide)
    rw [hexPadded, List.foldlM_append, ih]
    simp only [List.foldlM_cons, List.foldlM_nil, digitValue?_hexDigit hDigit, Option.filter,
      hDigit, decide_true, if_true, Option.map_some, Option.bind_eq_bind, Option.bind_some]
    rw [Nat.pow_succ', Nat.mod_mul]
    congr 1
    rw [Nat.mul_left_comm acc, Nat.mul_add]
    omega

theorem number?_hexPadded {width : Nat} (hWidth : 0 < width) (n : Nat) :
    number? 16 (hexPadded width n) = some (n % 16 ^ width) := by
  have hSome : (hexPadded width n).isEmpty = false := by
    rw [List.isEmpty_eq_false_iff, ← List.length_pos_iff, length_hexPadded]
    exact hWidth
  rw [number?, hSome, if_neg (by decide), foldlM_hexPadded, Nat.zero_mul, Nat.zero_add]

end Text

/-! ### Addresses and tags -/

namespace Pointer

theorem address?_hexPadded (address : UInt64) :
    address? (Text.hexPadded 16 address.toNat) = some address := by
  have hWord : address.toNat < 16 ^ 16 := address.toNat_lt
  have hFits : address.toNat ≤ Text.lastWord := by unfold Text.lastWord; omega
  rw [address?, Text.wordInBase?, Text.number?_hexPadded (by decide), Nat.mod_eq_of_lt hWord]
  simp [Option.filter, hFits]

theorem ne_caret_of_mem_hexPadded {width n : Nat} {c : Char} (h : c ∈ Text.hexPadded width n) :
    c ≠ '^' := by
  have hDigits : ∀ d < 16, Text.hexDigit d ≠ '^' := by decide
  obtain ⟨d, hDigit, rfl⟩ := Text.mem_hexPadded h
  exact hDigits d hDigit

/-- Without a caret, all of a body is digits. -/
theorem body?_bare {digits : List Char} (h : '^' ∉ digits) :
    body? digits = (address? digits).map (wrap · none) := by
  have hDigits : ∀ c ∈ digits, decide (c ≠ '^') = true :=
    fun c hMem => decide_eq_true fun hCaret => h (hCaret ▸ hMem)
  rw [body?, List.span_eq_takeWhile_dropWhile, List.takeWhile_eq_self_iff.mpr hDigits,
    List.dropWhile_eq_nil_iff.mpr hDigits]

/-- Behind its first caret, all of a body is the tag. -/
theorem body?_tagged {digits : List Char} (h : '^' ∉ digits) (tag : List Char) :
    body? (digits ++ '^' :: tag) = (address? digits).map (wrap · (some ⟨String.ofList tag⟩)) := by
  have hDigits : ∀ c ∈ digits, decide (c ≠ '^') = true :=
    fun c hMem => decide_eq_true fun hCaret => h (hCaret ▸ hMem)
  rw [body?, List.span_eq_takeWhile_dropWhile, List.takeWhile_append_of_pos hDigits,
    List.dropWhile_append_of_pos hDigits]
  simp

theorem body?_caret (address : UInt64) (tag : List Char) :
    body? (Text.hexPadded 16 address.toNat ++ '^' :: tag) =
      some (wrap address (some ⟨String.ofList tag⟩)) := by
  rw [body?_tagged fun hMem => ne_caret_of_mem_hexPadded hMem rfl, address?_hexPadded]
  rfl

/-- The text of no tag is the empty one, and the empty tag is no tag. -/
theorem properTag_text? (tag : Option Tag) : properTag (some ⟨Tag.text? tag⟩) = properTag tag := by
  cases tag with
  | none => rfl
  | some t => rfl

theorem ofChars?_taggedText (address : UInt64) (tag : Option Tag) :
    ofChars? (taggedText address tag).toList = some (wrap address tag) := by
  have hText : (taggedText address tag).toList =
      '0' :: 'x' :: (Text.hexPadded 16 address.toNat ++ '^' :: (Tag.text? tag).toList) := by
    simp [taggedText, addressText, addressChars]
  rw [hText]
  simp only [ofChars?, body?_caret, String.ofList_toList]
  simp [wrap, properTag_text?]

theorem parse_text (p : Pointer) : parse p.text = .ok p := by
  have hRead : ofChars? p.text.toList = some p := by
    unfold text
    split
    next hNull =>
      obtain ⟨address, tag, _⟩ := p
      obtain ⟨rfl, rfl⟩ := hNull
      rfl
    next => rw [ofChars?_taggedText, wrap_address_tag]
  simp only [parse, hRead]

theorem text_injective : Function.Injective text := by
  intro p q hText
  have hRead := parse_text p
  rw [hText, parse_text] at hRead
  exact (Except.ok.inj hRead).symm

/-- A value with the text of its pointer in place of the pointer. -/
def Value.spelled : Value → Value
  | .text s => .text s
  | .built p => .text p.text

theorem Value.pointer_spelled (v : Value) : v.spelled.pointer = v.pointer := by
  cases v with
  | text s => rfl
  | built p => exact parse_text p

end Pointer

end ArenaRegistry
