import ArenaRegistry.Text.Blank

/-! Characters that a reader would not see, or not see apart: control characters, blanks other than
the common one, format characters, marks that join the character before them, and code points that
no standard gives a meaning. The last two kinds are not complete here: of the joining marks there are
those with a block of their own, and of the code points without a meaning those that never get one. -/

namespace ArenaRegistry.Text

/-- The control characters. -/
def controlRanges : List (Nat × Nat) := [(0x00, 0x1F), (0x7F, 0x9F)]

/-- The format characters. -/
def formatRanges : List (Nat × Nat) :=
  [(0xAD, 0xAD), (0x600, 0x605), (0x61C, 0x61C), (0x6DD, 0x6DD), (0x70F, 0x70F), (0x890, 0x891),
   (0x8E2, 0x8E2), (0x180E, 0x180E), (0x200B, 0x200F), (0x202A, 0x202E), (0x2060, 0x206F),
   (0xFEFF, 0xFEFF), (0xFFF9, 0xFFFB), (0x110BD, 0x110BD), (0x110CD, 0x110CD),
   (0x13430, 0x1343F), (0x1BCA0, 0x1BCA3), (0x1D173, 0x1D17A), (0xE0000, 0xE0FFF)]

/-- The blocks of combining marks and of variation selectors. The marks that a script has among its
letters, such as U+0483, are left out. -/
def joiningRanges : List (Nat × Nat) :=
  [(0x300, 0x36F), (0x1AB0, 0x1AFF), (0x1DC0, 0x1DFF), (0x20D0, 0x20FF), (0x3099, 0x309A),
   (0xFE00, 0xFE0F), (0xFE20, 0xFE2F)]

/-- The areas for private use. -/
def privateRanges : List (Nat × Nat) := [(0xE000, 0xF8FF), (0xF0000, 0x10FFFF)]

/-- A code point that is never a character: the last two of each plane, and a block of its own. -/
def isNoncharacter (n : Nat) : Bool := 0xFFFE ≤ n % 0x10000 || (0xFDD0 ≤ n && n ≤ 0xFDEF)

/-- A character that shows as itself. A mark of a single script and a code point that is not assigned
yet count as such, though a complete table would have them. -/
def isPrintable (c : Char) : Bool :=
  c == ' ' || !(isBlank c || inRanges controlRanges c.toNat || inRanges formatRanges c.toNat ||
    inRanges joiningRanges c.toNat || inRanges privateRanges c.toNat || isNoncharacter c.toNat)

end ArenaRegistry.Text
