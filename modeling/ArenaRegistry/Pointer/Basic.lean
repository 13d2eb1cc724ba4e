import ArenaRegistry.Tag.Basic
import ArenaRegistry.Text.Numeral

/-! Tagged pointers: a 64-bit address with the tag of what it points to, if it has one. A pointer
never carries the empty tag, which means the same here as no tag. Its text is the address in sixteen
hexadecimal digits and the tag behind a caret; the null pointer without a tag has a name of its
own. -/

namespace ArenaRegistry

/-- An address with an optional tag that is not empty. -/
structure Pointer where
  address : UInt64
  tag : Option Tag
  tag_ne_empty : tag ≠ some Tag.empty := by decide
deriving DecidableEq

namespace Pointer

/-- No tag in place of the empty one. -/
def properTag (tag : Option Tag) : Option Tag := tag.filter (fun t => !t.isEmpty)

theorem properTag_ne_empty (tag : Option Tag) : properTag tag ≠ some Tag.empty := by
  cases tag with
  | none => simp [properTag]
  | some t =>
    intro h
    simp only [properTag, Option.filter_eq_some_iff] at h
    simp [Tag.isEmpty, Tag.empty] at h

theorem properTag_of_ne {tag : Option Tag} (h : tag ≠ some Tag.empty) : properTag tag = tag := by
  cases tag with
  | none => rfl
  | some t =>
    have : t.isEmpty = false := by
      rw [← Bool.not_eq_true, Tag.isEmpty_iff]
      exact fun e => h (congrArg some e)
    simp [properTag, Option.filter, this]

/-- The pointer to an address with a tag; the empty tag is dropped. -/
def wrap (address : UInt64) (tag : Option Tag) : Pointer :=
  ⟨address, properTag tag, properTag_ne_empty tag⟩

def null : Pointer := ⟨0, none, by decide⟩

/-- Whether the address is zero, whatever the tag. -/
def isNull (p : Pointer) : Bool := p.address == 0

theorem wrap_address_tag (p : Pointer) : wrap p.address p.tag = p := by
  cases p with
  | mk address tag h => simp [wrap, properTag_of_ne h]

/-- The characters of an address: `0x` and sixteen lower-case hexadecimal digits. -/
def addressChars (address : UInt64) : List Char := '0' :: 'x' :: Text.hexPadded 16 address.toNat

def addressText (address : UInt64) : String := String.ofList (addressChars address)

/-- The name of the null pointer without a tag. -/
def nullName : String := "NULL"

/-- The text of an address and a tag that may be missing, with a caret between them. -/
def taggedText (address : UInt64) (tag : Option Tag) : String :=
  addressText address ++ "^" ++ Tag.text? tag

def text (p : Pointer) : String :=
  if p.address = 0 ∧ p.tag = none then nullName else taggedText p.address p.tag

end Pointer

end ArenaRegistry
