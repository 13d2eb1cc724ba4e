/-! Words that a setting accepts, whatever the case of their ASCII letters, and the spellings of a
flag. -/

namespace ArenaRegistry.Text

/-- The characters of a text with its ASCII letters in lower case. -/
def lowered (s : String) : List Char := s.toList.map Char.toLower

/-- The text is the word, in letters of any case. -/
def spells (word s : String) : Bool := lowered s == lowered word

/-- Reads a flag: `1`, `true` and `yes` set it, `0`, `false` and `no` clear it. -/
def flag? (s : String) : Option Bool :=
  if s = "1" || spells "true" s || spells "yes" s then some true
  else if s = "0" || spells "false" s || spells "no" s then some false
  else none

end ArenaRegistry.Text
