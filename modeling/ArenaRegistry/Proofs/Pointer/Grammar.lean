import ArenaRegistry.Proofs.Pointer.Text
import Mathlib.Data.List.Forall2
import Mathlib.Data.Nat.Digits.Defs
import Mathlib.Tactic.Ring

/-! The grammar of pointers. A text spells a pointer if it is the name of the null pointer, or `0x`
with a hexadecimal numeral of a word, and then nothing or a caret and a tag, which may be any text.
The reader accepts just these texts. What a pointer is written as is one of its spellings, and the
same one for all of them. -/

namespace ArenaRegistry

/-! ### Numerals -/

namespace Text

/-- The hexadecimal digits of lower case, each at the place of its value. -/
def lowerDigits : List Char :=
  ['0', '1', '2', '3', '4', '5', '6', '7', '8', '9', 'a', 'b', 'c', 'd', 'e', 'f']

def upperDigits : List Char :=
  ['0', '1', '2', '3', '4', '5', '6', '7', '8', '9', 'A', 'B', 'C', 'D', 'E', 'F']

/-- A hexadecimal digit of either case, and its value. -/
def IsHexDigit (c : Char) (value : Nat) : Prop :=
  lowerDigits[value]? = some c ∨ upperDigits[value]? = some c

instance (c : Char) (value : Nat) : Decidable (IsHexDigit c value) :=
  inferInstanceAs (Decidable (_ ∨ _))

/-- One or more hexadecimal digits, highest first, and the number that they write. -/
def IsHexNumeral (digits : List Char) (n : Nat) : Prop :=
  digits ≠ [] ∧ ∃ values, List.Forall₂ IsHexDigit digits values ∧ n = Nat.ofDigits 16 values.reverse

variable {c : Char} {value n : Nat} {digits : List Char}

theorem IsHexDigit.lt (h : IsHexDigit c value) : value < 16 := by
  rcases h with h | h
  · exact (List.getElem?_eq_some_iff.mp h).1
  · exact (List.getElem?_eq_some_iff.mp h).1

theorem IsHexDigit.ne_caret (h : IsHexDigit c value) : c ≠ '^' := by
  rintro rfl
  have hLower : '^' ∉ lowerDigits := by decide
  have hUpper : '^' ∉ upperDigits := by decide
  rcases h with h | h
  · exact hLower (List.mem_of_getElem? h)
  · exact hUpper (List.mem_of_getElem? h)

theorem IsHexNumeral.caret_not_mem (h : IsHexNumeral digits n) : '^' ∉ digits := by
  obtain ⟨-, values, hValues, -⟩ := h
  intro hMem
  obtain ⟨i, hi, hCaret⟩ := List.getElem_of_mem hMem
  have hDigit := (List.forall₂_iff_get.mp hValues).2 i hi (hValues.length_eq ▸ hi)
  exact hDigit.ne_caret hCaret

/-- What is read as a digit lies in one of three ranges of characters. -/
theorem digitValue?_cases (h : digitValue? c = some value) :
    c.toNat = 48 + value ∧ value < 10 ∨ c.toNat = 87 + value ∧ 10 ≤ value ∧ value < 16 ∨
      c.toNat = 55 + value ∧ 10 ≤ value ∧ value < 16 := by
  unfold digitValue? at h
  split at h
  next hRange =>
    have hFirst : 48 ≤ c.toNat := hRange.1
    have hLast : c.toNat ≤ 57 := hRange.2
    have := Option.some.inj h
    omega
  next =>
    split at h
    next hRange =>
      have hFirst : 97 ≤ c.toNat := hRange.1
      have hLast : c.toNat ≤ 102 := hRange.2
      have := Option.some.inj h
      omega
    next =>
      split at h
      next hRange =>
        have hFirst : 65 ≤ c.toNat := hRange.1
        have hLast : c.toNat ≤ 70 := hRange.2
        have := Option.some.inj h
        omega
      next => cases h

theorem isHexDigit_of_digitValue? (h : digitValue? c = some value) : IsHexDigit c value := by
  have hDecimal : ∀ v < 10, lowerDigits[v]? = some (Char.ofNat (48 + v)) := by decide
  have hLower : ∀ v < 16, 10 ≤ v → lowerDigits[v]? = some (Char.ofNat (87 + v)) := by decide
  have hUpper : ∀ v < 16, 10 ≤ v → upperDigits[v]? = some (Char.ofNat (55 + v)) := by decide
  rw [← Char.ofNat_toNat c]
  obtain ⟨hCode, hLess⟩ | ⟨hCode, hTen, hLess⟩ | ⟨hCode, hTen, hLess⟩ := digitValue?_cases h
  · exact .inl (hCode ▸ hDecimal value hLess)
  · exact .inl (hCode ▸ hLower value hLess hTen)
  · exact .inr (hCode ▸ hUpper value hLess hTen)

theorem digitValue?_eq_some_iff : digitValue? c = some value ↔ IsHexDigit c value := by
  refine ⟨isHexDigit_of_digitValue?, fun h => ?_⟩
  have hLower : lowerDigits.map digitValue? = (List.range 16).map some := by decide
  have hUpper : upperDigits.map digitValue? = (List.range 16).map some := by decide
  have hPlace : ((List.range 16).map some)[value]? = some (digitValue? c) := by
    rcases h with h | h
    · rw [← hLower, List.getElem?_map, h, Option.map_some]
    · rw [← hUpper, List.getElem?_map, h, Option.map_some]
  rw [List.getElem?_map, List.getElem?_range h.lt, Option.map_some] at hPlace
  exact (Option.some.inj hPlace).symm

/-- The highest digit of a numeral counts for as many places as there are digits behind it. -/
theorem ofDigits_reverse_cons (acc value : Nat) {digits : List Char} {values : List Nat}
    (h : digits.length = values.length) :
    acc * 16 ^ (digits.length + 1) + Nat.ofDigits 16 (value :: values).reverse =
      (16 * acc + value) * 16 ^ digits.length + Nat.ofDigits 16 values.reverse := by
  rw [List.reverse_cons, Nat.ofDigits_append, List.length_reverse, ← h, Nat.ofDigits_singleton,
    Nat.pow_succ']
  ring

/-- Digits that are read after others are the lowest places of the number of them all. -/
theorem foldlM_eq_some_iff {acc : Nat} :
    digits.foldlM (fun n c => ((digitValue? c).filter (· < 16)).map (16 * n + ·)) acc = some n ↔
      ∃ values, List.Forall₂ IsHexDigit digits values ∧
        n = acc * 16 ^ digits.length + Nat.ofDigits 16 values.reverse := by
  induction digits generalizing acc with
  | nil => simp [eq_comm]
  | cons c digits ih =>
    rw [List.foldlM_cons, Option.bind_eq_bind, Option.bind_eq_some_iff]
    constructor
    · rintro ⟨next, hNext, hRest⟩
      obtain ⟨value, hValue, rfl⟩ := Option.map_eq_some_iff.mp hNext
      obtain ⟨values, hValues, rfl⟩ := ih.mp hRest
      have hDigit := digitValue?_eq_some_iff.mp (Option.filter_eq_some_iff.mp hValue).1
      exact ⟨value :: values, .cons hDigit hValues,
        (ofDigits_reverse_cons acc value hValues.length_eq).symm⟩
    · rintro ⟨_, hAll, rfl⟩
      cases hAll with
      | @cons _ value _ values hDigit hValues =>
        have hNext : ((digitValue? c).filter (· < 16)).map (16 * acc + ·) =
            some (16 * acc + value) := by
          simp [digitValue?_eq_some_iff.mpr hDigit, Option.filter, hDigit.lt]
        exact ⟨_, hNext, ih.mpr ⟨values, hValues,
          ofDigits_reverse_cons acc value hValues.length_eq⟩⟩

theorem number?_eq_some_iff : number? 16 digits = some n ↔ IsHexNumeral digits n := by
  cases digits with
  | nil => simp [number?, IsHexNumeral]
  | cons c digits =>
    rw [number?, List.isEmpty_cons, if_neg (by decide), foldlM_eq_some_iff]
    simp [IsHexNumeral]

end Text

namespace Pointer

/-- The texts of pointers, with the address and the tag that each stands for. -/
inductive Spells : String → Nat → Option Tag → Prop
  /-- The name of the null pointer. -/
  | null : Spells "NULL" 0 none
  | bare {digits : List Char} {address : Nat} (numeral : Text.IsHexNumeral digits address)
      (word : address < 2 ^ 64) : Spells ("0x" ++ String.ofList digits) address none
  /-- A tag behind a caret; the empty one counts as none. -/
  | tagged {digits : List Char} {address : Nat} (numeral : Text.IsHexNumeral digits address)
      (word : address < 2 ^ 64) (tag : String) :
      Spells ("0x" ++ String.ofList digits ++ "^" ++ tag) address
        (if tag = "" then none else some ⟨tag⟩)

/-- The text of the pointer that a text stands for. -/
def canonical (s : String) : Except PointerError String := (parse s).map text

variable {s c : String} {p q : Pointer}

/-! ### Reading -/

theorem address?_eq_some_iff {digits : List Char} {address : UInt64} :
    address? digits = some address ↔ Text.IsHexNumeral digits address.toNat := by
  have hWord : address.toNat ≤ Text.lastWord := Nat.le_of_lt_succ address.toNat_lt
  rw [address?, Text.wordInBase?, Option.map_eq_some_iff, ← Text.number?_eq_some_iff]
  constructor
  · rintro ⟨n, hRead, rfl⟩
    obtain ⟨hNumber, hFits⟩ := Option.filter_eq_some_iff.mp hRead
    have hn : n < 2 ^ 64 := Nat.lt_succ_of_le (of_decide_eq_true hFits)
    rw [hNumber, UInt64.toNat_ofNat_of_lt' hn]
  · intro hNumber
    refine ⟨address.toNat, ?_, UInt64.ofNat_toNat⟩
    exact Option.filter_eq_some_iff.mpr ⟨hNumber, decide_eq_true hWord⟩

theorem properTag_text (tag : String) :
    properTag (some ⟨tag⟩) = if tag = "" then none else some ⟨tag⟩ := by
  simp [properTag, Option.filter, Tag.isEmpty]

theorem eq_of_parts (hAddress : p.address.toNat = q.address.toNat) (hTag : p.tag = q.tag) :
    p = q := by
  obtain ⟨address, tag, _⟩ := p
  obtain ⟨address', tag', _⟩ := q
  obtain rfl : address = address' := UInt64.toNat_inj.mp hAddress
  obtain rfl : tag = tag' := hTag
  rfl

theorem parse_eq_ok : parse s = .ok p ↔ ofChars? s.toList = some p := by
  unfold parse
  cases ofChars? s.toList with
  | none => exact ⟨nofun, nofun⟩
  | some q => simp

/-- A text that spells a pointer is read, as that pointer. -/
theorem Spells.exists_parse {address : Nat} {tag : Option Tag} (h : Spells s address tag) :
    ∃ p, parse s = .ok p ∧ p.address.toNat = address ∧ p.tag = tag := by
  cases h with
  | null => exact ⟨Pointer.null, rfl, rfl, rfl⟩
  | @bare digits address numeral word =>
    have hAddress : (UInt64.ofNat address).toNat = address := UInt64.toNat_ofNat_of_lt' word
    have hRead := address?_eq_some_iff.mpr (hAddress.symm ▸ numeral)
    have hChars : ("0x" ++ String.ofList digits).toList = '0' :: 'x' :: digits := by simp
    refine ⟨wrap (UInt64.ofNat address) none, ?_, hAddress, rfl⟩
    rw [parse_eq_ok, hChars, ofChars?, body?_bare numeral.caret_not_mem, hRead]
    rfl
  | @tagged digits address numeral word tag =>
    have hAddress : (UInt64.ofNat address).toNat = address := UInt64.toNat_ofNat_of_lt' word
    have hRead := address?_eq_some_iff.mpr (hAddress.symm ▸ numeral)
    have hChars : ("0x" ++ String.ofList digits ++ "^" ++ tag).toList =
        '0' :: 'x' :: (digits ++ '^' :: tag.toList) := by simp
    refine ⟨wrap (UInt64.ofNat address) (some ⟨tag⟩), ?_, hAddress, properTag_text tag⟩
    rw [parse_eq_ok, hChars, ofChars?, body?_tagged numeral.caret_not_mem, hRead,
      String.ofList_toList]
    rfl

/-- What is read as a pointer spells it. -/
theorem spells_of_parse (h : parse s = .ok p) : Spells s p.address.toNat p.tag := by
  rw [parse_eq_ok] at h
  unfold ofChars? at h
  split at h
  next hName =>
    obtain rfl : p = null := (Option.some.inj h).symm
    obtain rfl : s = "NULL" := String.toList_inj.mp hName
    exact .null
  next body hBody =>
    by_cases hCaret : '^' ∈ body
    · -- The first caret ends the digits; the tag may have more of them.
      obtain ⟨digits, tag, rfl, hNone⟩ := List.eq_append_cons_of_mem hCaret
      rw [body?_tagged hNone] at h
      obtain ⟨address, hRead, rfl⟩ := Option.map_eq_some_iff.mp h
      obtain rfl : s = "0x" ++ String.ofList digits ++ "^" ++ String.ofList tag := by
        apply String.toList_inj.mp
        simp [hBody]
      have hTag : (wrap address (some ⟨String.ofList tag⟩)).tag = _ := properTag_text _
      rw [hTag]
      exact .tagged (address?_eq_some_iff.mp hRead) address.toNat_lt _
    · rw [body?_bare hCaret] at h
      obtain ⟨address, hRead, rfl⟩ := Option.map_eq_some_iff.mp h
      obtain rfl : s = "0x" ++ String.ofList body := by
        apply String.toList_inj.mp
        simp [hBody]
      exact .bare (address?_eq_some_iff.mp hRead) address.toNat_lt
  next => cases h

theorem parse_of_not_spells (h : ∀ address tag, ¬Spells s address tag) :
    parse s = .error (.format s) := by
  cases hRead : ofChars? s.toList with
  | none => rw [parse, hRead]
  | some p => exact absurd (spells_of_parse (parse_eq_ok.mpr hRead)) (h _ _)

theorem canonical_eq_ok : canonical s = .ok c ↔ ∃ p, parse s = .ok p ∧ p.text = c := by
  unfold canonical
  cases parse s with
  | error e => exact ⟨nofun, nofun⟩
  | ok p => simp [Except.map]

/-- A text is read as a pointer just where it spells that pointer, every text that spells one is
read, and any other fails as it is. The canonical form of a text is read as what the text is, and is
its own canonical form; two texts have the same one just where they are read as the same pointer. -/
theorem parse_by_grammar :
    (∀ s p, parse s = .ok p ↔ Spells s p.address.toNat p.tag) ∧
      (∀ s, (∃ p, parse s = .ok p) ↔ ∃ address tag, Spells s address tag) ∧
      (∀ s, (∀ address tag, ¬Spells s address tag) → parse s = .error (.format s)) ∧
      (∀ s c, canonical s = .ok c → parse c = parse s ∧ canonical c = .ok c) ∧
      ∀ s t c d, canonical s = .ok c → canonical t = .ok d → (c = d ↔ parse s = parse t) := by
  refine ⟨fun s p => ⟨spells_of_parse, ?_⟩, fun s => ⟨?_, ?_⟩, fun s => parse_of_not_spells, ?_, ?_⟩
  · intro h
    obtain ⟨q, hRead, hAddress, hTag⟩ := h.exists_parse
    rw [hRead, eq_of_parts hAddress hTag]
  · rintro ⟨p, hRead⟩
    exact ⟨_, _, spells_of_parse hRead⟩
  · rintro ⟨address, tag, h⟩
    obtain ⟨p, hRead, -⟩ := h.exists_parse
    exact ⟨p, hRead⟩
  · intro s c hCanonical
    obtain ⟨p, hRead, rfl⟩ := canonical_eq_ok.mp hCanonical
    rw [parse_text, hRead]
    exact ⟨rfl, canonical_eq_ok.mpr ⟨p, parse_text p, rfl⟩⟩
  · intro s t c d hS hT
    obtain ⟨p, hReadS, rfl⟩ := canonical_eq_ok.mp hS
    obtain ⟨q, hReadT, rfl⟩ := canonical_eq_ok.mp hT
    rw [hReadS, hReadT, text_injective.eq_iff, Except.ok.injEq]

/-- Digits of both cases behind a zero, a tag with a caret and a name in it, a text with another
canonical form, and a text without digits. -/
theorem parse_by_grammar_carets :
    Spells "0x0Ff^a^NULL" 255 (some ⟨"a^NULL"⟩) ∧ (∃ p, parse "0x0Ff^a^NULL" = .ok p) ∧
      canonical "0xff" = .ok "0x00000000000000ff^" ∧
      parse "0x00000000000000ff^" = parse "0xff" ∧
      (∀ address tag, ¬Spells "0x^T" address tag) ∧ parse "0x^T" = .error (.format "0x^T") := by
  obtain ⟨-, hAccepts, hRefuses, hCanonical, -⟩ := parse_by_grammar
  have hDigits : Text.IsHexNumeral ['0', 'F', 'f'] 255 :=
    ⟨by decide, [0, 15, 15], by simp [Text.IsHexDigit, Text.lowerDigits, Text.upperDigits],
      by decide⟩
  have hSpells : Spells "0x0Ff^a^NULL" 255 (some ⟨"a^NULL"⟩) := .tagged hDigits (by decide) "a^NULL"
  have hForm : canonical "0xff" = .ok "0x00000000000000ff^" := by rfl
  have hNone : ∀ address tag, ¬Spells "0x^T" address tag := by
    intro address tag h
    obtain ⟨p, hRead⟩ := (hAccepts _).mpr ⟨_, _, h⟩
    cases hRead
  exact ⟨hSpells, (hAccepts _).mpr ⟨_, _, hSpells⟩, hForm, (hCanonical _ _ hForm).1, hNone,
    hRefuses _ hNone⟩

end Pointer

end ArenaRegistry
