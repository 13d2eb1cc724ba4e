import ArenaRegistry.Arena.Tamper
import ArenaRegistry.Proofs.Arena.Faultless
import Mathlib.Tactic.ByContra
import Mathlib.Tactic.SplitIfs

/-! What the checks of an arena find, however damaged it is. The rules of an arena stand in a list,
in the order in which they count, and the checks report the first that is broken. In machine words
no step of theirs faults: a mark is looked at only after those above it, and its blocks only after
its counts, so they are among the blocks of the arena by then. -/

namespace ArenaRegistry.Arena

variable (a : Arena)

/-! ### The rules -/

/-- A rule, and what is reported where it does not hold. -/
structure Rule where
  fault : Corruption
  holds : Bool
deriving DecidableEq, Repr

/-- The most chunks that the mark at a depth may count: those of the mark above it, or all. -/
def chunkLimit (depth : Nat) : Nat :=
  ((a.marks[depth + 1]?).map (·.chunkCount)).getD a.chunks.length

/-- The most big blocks that the mark at a depth may count. -/
def bigLimit (depth : Nat) : Nat :=
  ((a.marks[depth + 1]?).map (·.bigCount)).getD a.bigBlocks.length

/-- Where the last big block that a mark counts starts. -/
def bigStart? (m : Mark) : Option Nat := (a.bigAt? m.bigCount).map (·.start)

/-- The rules of where a mark's last allocation lies: at the start of the last big block that the
mark counts, or in its chunk. -/
def lastRules (m : Mark) (depth : Nat) : List Rule :=
  let chunk := a.chunkAt m.chunkCount
  [⟨.lastBelowChunk depth, ∀ address ∈ m.last,
      a.bigStart? m = some address ∨ chunk.start ≤ address⟩,
    ⟨.lastOutsideChunk depth, ∀ address ∈ m.last,
      a.bigStart? m = some address ∨ chunk.Contains address⟩]

/-- The rules of the mark at a depth. -/
def markRules (m : Mark) (depth : Nat) : List Rule :=
  [⟨.badMarkMagic depth, m.magic = markMagic⟩,
    ⟨.sequenceGap depth (depth + 1) m.seq, m.seq = depth + 1⟩,
    ⟨.foreignMark depth, m.owner = a.id⟩,
    ⟨.brokenBlockList depth, 1 ≤ m.chunkCount ∧ m.chunkCount ≤ a.chunkLimit depth ∧
      m.bigCount ≤ a.bigLimit depth⟩] ++
    a.lastRules m depth ++ [⟨.freePastChunkEnd depth, m.free ≤ (a.chunkAt m.chunkCount).size⟩]

/-- The rules of so many of the lowest marks, those of the uppermost first. -/
def rulesBelow : Nat → List Rule
  | 0 => []
  | depth + 1 => a.markRules (a.markAt depth) depth ++ rulesBelow depth

/-- Every rule of an arena, in the order in which they count. -/
def rules : List Rule :=
  [⟨.badArenaMagic, a.magic = arenaMagic⟩, ⟨.missingMarks, a.marks ≠ []⟩] ++
    a.rulesBelow a.marks.length ++ [⟨.bottomMismatch, (a.markAt 0).id = a.bottomId⟩]

/-- What is reported for a list of rules: the fault of the first that does not hold. -/
def firstFault (rs : List Rule) : Option Corruption := (rs.find? (!·.holds)).map (·.fault)

section FirstFault

variable {rs ss : List Rule}

theorem firstFault_nil : firstFault [] = none := rfl

theorem firstFault_cons (r : Rule) :
    firstFault (r :: rs) = if r.holds then firstFault rs else some r.fault := by
  unfold firstFault
  cases h : r.holds <;> simp [h]

theorem firstFault_append : firstFault (rs ++ ss) = (firstFault rs).or (firstFault ss) := by
  rw [firstFault, List.find?_append, Option.map_or]
  rfl

theorem firstFault_eq_none_iff : firstFault rs = none ↔ ∀ r ∈ rs, r.holds := by
  simp [firstFault]

/-- A fault is reported for the rule that breaks first: all those before it hold. -/
theorem firstFault_eq_some_iff {fault : Corruption} :
    firstFault rs = some fault ↔
      ∃ before rule after, rs = before ++ rule :: after ∧ (∀ r ∈ before, r.holds) ∧
        rule.holds = false ∧ rule.fault = fault := by
  simp only [firstFault, Option.map_eq_some_iff, List.find?_eq_some_iff_append, Bool.not_eq_true',
    Bool.not_not]
  constructor
  · rintro ⟨rule, ⟨hBroken, before, after, hSplit, hBefore⟩, hFault⟩
    exact ⟨before, rule, after, hSplit, hBefore, hBroken, hFault⟩
  · rintro ⟨before, rule, after, hSplit, hBefore, hBroken, hFault⟩
    exact ⟨rule, ⟨hBroken, before, after, hSplit, hBefore⟩, hFault⟩

end FirstFault

/-! ### The checks report the first rule that breaks -/

variable {a}

theorem any_bigAt?_iff {m : Mark} {address : Nat} :
    (a.bigAt? m.bigCount).any (·.start == address) = true ↔ a.bigStart? m = some address := by
  simp [bigStart?, Option.any_eq_true]

theorem lastFault?_eq_firstFault (m : Mark) (depth : Nat) :
    a.lastFault? m depth (a.chunkAt m.chunkCount) = firstFault (a.lastRules m depth) := by
  unfold lastFault? lastRules
  simp only [firstFault_cons, firstFault_nil, decide_eq_true_eq]
  cases hLast : m.last with
  | none => simp
  | some address =>
    simp only [any_bigAt?_iff, Option.mem_some, forall_eq']
    by_cases hStart : a.bigStart? m = some address
    · simp only [hStart, true_or, if_true]
    · simp only [hStart, false_or, if_false, ← Nat.not_le, ite_not]

theorem markFault?_eq_firstFault (m : Mark) (depth : Nat) :
    a.markFault? m depth (a.chunkLimit depth) (a.bigLimit depth) =
      firstFault (a.markRules m depth) := by
  have hCounts : (m.chunkCount = 0 ∨ a.chunkLimit depth < m.chunkCount ∨
      a.bigLimit depth < m.bigCount) ↔ ¬(1 ≤ m.chunkCount ∧ m.chunkCount ≤ a.chunkLimit depth ∧
        m.bigCount ≤ a.bigLimit depth) := by
    omega
  have hFree : (a.chunkAt m.chunkCount).size < m.free ↔
      ¬m.free ≤ (a.chunkAt m.chunkCount).size := Nat.not_le.symm
  unfold markFault? markRules
  simp only [hCounts, hFree, lastFault?_eq_firstFault, ne_eq, ite_not, List.cons_append,
    List.nil_append, firstFault_cons, firstFault_append, firstFault_nil, decide_eq_true_eq]
  cases firstFault (a.lastRules m depth) <;> rfl

/-- The limits that the checks carry down the stack are those that the next mark sets. -/
theorem marksFault?_eq_firstFault {n chunkLimit bigLimit : Nat} (hn : n ≤ a.marks.length)
    (hLimits : ∀ depth, n = depth + 1 →
      chunkLimit = a.chunkLimit depth ∧ bigLimit = a.bigLimit depth) :
    a.marksFault? (a.marks.take n).reverse chunkLimit bigLimit = firstFault (a.rulesBelow n) := by
  induction n generalizing chunkLimit bigLimit with
  | zero => rfl
  | succ depth ih =>
    obtain ⟨rfl, rfl⟩ := hLimits depth rfl
    have hLess : depth < a.marks.length := hn
    have hMark : a.marks[depth] = a.markAt depth := by simp [markAt, hLess]
    have hBelow : a.marksFault? (a.marks.take depth).reverse (a.markAt depth).chunkCount
        (a.markAt depth).bigCount = firstFault (a.rulesBelow depth) := by
      apply ih (Nat.le_of_lt hLess)
      rintro lower rfl
      simp [Arena.chunkLimit, Arena.bigLimit, hLess, hMark]
    rw [← List.take_append_getElem hLess, hMark, List.reverse_concat, marksFault?,
      List.length_reverse, List.length_take_of_le (Nat.le_of_lt hLess), markFault?_eq_firstFault,
      hBelow, rulesBelow, firstFault_append]
    cases firstFault (a.markRules (a.markAt depth) depth) <;> rfl

/-- The checks report the first rule that breaks. -/
theorem corruption?_eq_firstFault : a.corruption? = firstFault a.rules := by
  have hMarks : a.marksFault? a.marks.reverse a.chunks.length a.bigBlocks.length =
      firstFault (a.rulesBelow a.marks.length) := by
    have hAll := marksFault?_eq_firstFault (a := a) (Nat.le_refl _) fun depth hTop => by
      rw [chunkLimit, bigLimit, List.getElem?_eq_none (Nat.le_of_eq hTop)]
      exact ⟨rfl, rfl⟩
    rwa [List.take_length] at hAll
  unfold corruption? rules
  simp only [hMarks, ne_eq, ite_not, List.cons_append, List.nil_append, firstFault_cons,
    firstFault_append, firstFault_nil, decide_eq_true_eq]
  cases firstFault (a.rulesBelow a.marks.length) <;> rfl

/-! ### Arenas without a fault -/

/-- Nothing is wrong with the mark at a depth. -/
structure MarkIntact (a : Arena) (m : Mark) (depth : Nat) : Prop where
  magic : m.magic = markMagic
  seq : m.seq = depth + 1
  owner : m.owner = a.id
  chunks_pos : 1 ≤ m.chunkCount
  chunks_le : m.chunkCount ≤ a.chunkLimit depth
  bigs_le : m.bigCount ≤ a.bigLimit depth
  last : ∀ address ∈ m.last,
    a.bigStart? m = some address ∨ (a.chunkAt m.chunkCount).Contains address
  free_le : m.free ≤ (a.chunkAt m.chunkCount).size

/-- Nothing is wrong with the arena. -/
structure Intact (a : Arena) : Prop where
  magic : a.magic = arenaMagic
  nonempty : a.marks ≠ []
  marks : ∀ depth < a.marks.length, a.MarkIntact (a.markAt depth) depth
  bottom : (a.markAt 0).id = a.bottomId

theorem markRules_hold_iff {m : Mark} {depth : Nat} :
    (∀ r ∈ a.markRules m depth, r.holds) ↔ a.MarkIntact m depth := by
  simp only [markRules, lastRules, List.forall_mem_append, List.forall_mem_cons, List.not_mem_nil,
    false_implies, implies_true, decide_eq_true_eq, and_true]
  constructor
  · rintro ⟨⟨⟨hMagic, hSeq, hOwner, hPos, hChunks, hBigs⟩, _, hLast⟩, hFree⟩
    exact ⟨hMagic, hSeq, hOwner, hPos, hChunks, hBigs, hLast, hFree⟩
  · intro h
    -- An address in the chunk is none below it.
    have hBelow : ∀ address ∈ m.last,
        a.bigStart? m = some address ∨ (a.chunkAt m.chunkCount).start ≤ address :=
      fun address hLast => (h.last address hLast).imp_right And.left
    exact ⟨⟨⟨h.magic, h.seq, h.owner, h.chunks_pos, h.chunks_le, h.bigs_le⟩, hBelow, h.last⟩,
      h.free_le⟩

theorem rulesBelow_hold_iff {n : Nat} :
    (∀ r ∈ a.rulesBelow n, r.holds) ↔ ∀ depth < n, a.MarkIntact (a.markAt depth) depth := by
  induction n with
  | zero => simp [rulesBelow]
  | succ n ih =>
    rw [rulesBelow, List.forall_mem_append, markRules_hold_iff, ih, Nat.forall_lt_succ_right,
      and_comm]

theorem corruption?_eq_none_iff : a.corruption? = none ↔ a.Intact := by
  rw [corruption?_eq_firstFault, firstFault_eq_none_iff]
  simp only [rules, List.forall_mem_append, List.forall_mem_cons, List.not_mem_nil, false_implies,
    implies_true, rulesBelow_hold_iff, decide_eq_true_eq, and_true]
  constructor
  · rintro ⟨⟨⟨hMagic, hSome⟩, hMarks⟩, hBottom⟩
    exact ⟨hMagic, hSome, hMarks, hBottom⟩
  · intro h
    exact ⟨⟨⟨h.magic, h.nonempty⟩, h.marks⟩, h.bottom⟩

/-! ### The checks in machine words -/

namespace Checked

variable (a : Arena)

/-- Where the last of so many big blocks starts, if there is one. -/
def bigStart? (count : Nat) : Option (Option Nat) :=
  match sub count 1 with
  | none => return none
  | some last => do
    let block ← a.bigBlocks[last]?
    return some block.start

/-- The end of the block is worked out for no address that lies below the block. -/
def contains (block : Span) (address : Nat) : Option Bool := do
  if block.start ≤ address then
    let stop ← add 64 block.start block.size
    return address < stop
  else return false

def lastFault? (m : Mark) (depth : Nat) (chunk : Span) : Option (Option Corruption) := do
  match m.last with
  | none => return none
  | some address =>
    let big ← bigStart? a m.bigCount
    if big = some address then return none
    else if address < chunk.start then return some (.lastBelowChunk depth)
    else if ← contains chunk address then return none
    else return some (.lastOutsideChunk depth)

def markFault? (m : Mark) (depth chunkLimit bigLimit : Nat) : Option (Option Corruption) := do
  if m.magic ≠ markMagic then return some (.badMarkMagic depth)
  let expected ← add 32 (depth % 2 ^ 32) 1
  if m.seq ≠ expected then return some (.sequenceGap depth expected m.seq)
  else if m.owner ≠ a.id then return some (.foreignMark depth)
  else if m.chunkCount = 0 ∨ chunkLimit < m.chunkCount ∨ bigLimit < m.bigCount then
    return some (.brokenBlockList depth)
  else
    let chunk ← a.chunks[← sub m.chunkCount 1]?
    match ← lastFault? a m depth chunk with
    | some fault => return some fault
    | none => return if chunk.size < m.free then some (.freePastChunkEnd depth) else none

def marksFault? : (fromTop : List Mark) → (chunkLimit bigLimit : Nat) → Option (Option Corruption)
  | [], _, _ => return none
  | m :: below, chunkLimit, bigLimit => do
    match ← markFault? a m below.length chunkLimit bigLimit with
    | some fault => return some fault
    | none => marksFault? below m.chunkCount m.bigCount

def corruption? : Option (Option Corruption) := do
  if a.magic ≠ arenaMagic then return some .badArenaMagic
  else if a.marks = [] then return some .missingMarks
  else
    match ← marksFault? a a.marks.reverse a.chunks.length a.bigBlocks.length with
    | some fault => return some fault
    | none =>
      let bottom ← a.marks[0]?
      return if bottom.id ≠ a.bottomId then some .bottomMismatch else none

variable {a}

theorem bigStart?_eq {m : Mark} (h : m.bigCount ≤ a.bigBlocks.length) :
    bigStart? a m.bigCount = some (a.bigStart? m) := by
  unfold bigStart? Arena.bigStart? Arena.bigAt?
  cases hCount : m.bigCount with
  | zero => rfl
  | succ last =>
    have hLess : last < a.bigBlocks.length := by omega
    have hSub : sub (last + 1) 1 = some last := sub_eq (Nat.le_add_left _ _)
    simp [hSub, hLess]

theorem contains_eq {block : Span} (h : block.InSpace (2 ^ 64 - 1)) (address : Nat) :
    contains block address = some (decide (block.Contains address)) := by
  have hStop : add 64 block.start block.size = some block.stop :=
    add_eq (Nat.lt_of_le_pred (Nat.two_pow_pos 64) h)
  unfold contains Span.Contains
  rw [hStop]
  by_cases hStart : block.start ≤ address <;> simp [hStart]

theorem lastFault?_eq {m : Mark} {chunk : Span} (hBigs : m.bigCount ≤ a.bigBlocks.length)
    (hChunk : chunk.InSpace (2 ^ 64 - 1)) (depth : Nat) :
    lastFault? a m depth chunk = some (a.lastFault? m depth chunk) := by
  unfold lastFault? Arena.lastFault?
  cases m.last with
  | none => rfl
  | some address =>
    simp only [bigStart?_eq hBigs, contains_eq hChunk, any_bigAt?_iff, Option.bind_eq_bind,
      Option.bind_some, Option.pure_def, decide_eq_true_eq, apply_ite some]

theorem counts_le_of_markFault? {m : Mark} {depth chunkLimit bigLimit : Nat}
    (h : a.markFault? m depth chunkLimit bigLimit = none) :
    m.chunkCount ≤ chunkLimit ∧ m.bigCount ≤ bigLimit := by
  by_contra hCounts
  have hBroken : m.chunkCount = 0 ∨ chunkLimit < m.chunkCount ∨ bigLimit < m.bigCount := by omega
  unfold Arena.markFault? at h
  rw [if_pos hBroken] at h
  split_ifs at h

/-- The mark's own counts are known to be good before a block is looked up by one. -/
theorem markFault?_eq {m : Mark} {depth chunkLimit bigLimit : Nat} (hDepth : depth < 2 ^ 32 - 1)
    (hChunks : chunkLimit ≤ a.chunks.length) (hBigs : bigLimit ≤ a.bigBlocks.length)
    (hBlocks : ∀ chunk ∈ a.chunks, chunk.InSpace (2 ^ 64 - 1)) :
    markFault? a m depth chunkLimit bigLimit = some (a.markFault? m depth chunkLimit bigLimit) := by
  have hExpected : add 32 (depth % 2 ^ 32) 1 = some (depth + 1) := by
    rw [Nat.mod_eq_of_lt (by omega)]
    exact add_eq (by omega)
  unfold markFault? Arena.markFault?
  simp only [hExpected, Option.bind_eq_bind, Option.bind_some, Option.pure_def, apply_ite some]
  by_cases hCounts : m.chunkCount = 0 ∨ chunkLimit < m.chunkCount ∨ bigLimit < m.bigCount
  · simp only [if_pos hCounts]
  · have hIndex : sub m.chunkCount 1 = some (m.chunkCount - 1) := sub_eq (by omega)
    have hLess : m.chunkCount - 1 < a.chunks.length := by omega
    have hChunk : a.chunks[m.chunkCount - 1]? = some (a.chunkAt m.chunkCount) := by
      simp [chunkAt, hLess]
    have hLast : lastFault? a m depth (a.chunkAt m.chunkCount) =
        some (a.lastFault? m depth (a.chunkAt m.chunkCount)) :=
      lastFault?_eq (by omega) (hBlocks _ (List.mem_of_getElem? hChunk)) depth
    simp only [if_neg hCounts, hIndex, hChunk, hLast, Option.bind_some]
    cases a.lastFault? m depth (a.chunkAt m.chunkCount) <;> simp only [apply_ite some]

theorem marksFault?_eq {fromTop : List Mark} {chunkLimit bigLimit : Nat}
    (hMarks : fromTop.length < 2 ^ 32 - 1)
    (hChunks : chunkLimit ≤ a.chunks.length) (hBigs : bigLimit ≤ a.bigBlocks.length)
    (hBlocks : ∀ chunk ∈ a.chunks, chunk.InSpace (2 ^ 64 - 1)) :
    marksFault? a fromTop chunkLimit bigLimit =
      some (a.marksFault? fromTop chunkLimit bigLimit) := by
  induction fromTop generalizing chunkLimit bigLimit with
  | nil => rfl
  | cons m below ih =>
    rw [List.length_cons] at hMarks
    rw [marksFault?, Arena.marksFault?, markFault?_eq (by omega) hChunks hBigs hBlocks,
      Option.bind_eq_bind, Option.bind_some]
    cases hMark : a.markFault? m below.length chunkLimit bigLimit with
    | some fault => rfl
    | none =>
      obtain ⟨hChunkCount, hBigCount⟩ := counts_le_of_markFault? hMark
      exact ih (by omega) (Nat.le_trans hChunkCount hChunks) (Nat.le_trans hBigCount hBigs)

theorem corruption?_eq (hMarks : a.marks.length < 2 ^ 32 - 1)
    (hBlocks : ∀ chunk ∈ a.chunks, chunk.InSpace (2 ^ 64 - 1)) :
    corruption? a = some a.corruption? := by
  have hAll : marksFault? a a.marks.reverse a.chunks.length a.bigBlocks.length =
      some (a.marksFault? a.marks.reverse a.chunks.length a.bigBlocks.length) :=
    marksFault?_eq (by rwa [List.length_reverse]) (Nat.le_refl _) (Nat.le_refl _) hBlocks
  unfold corruption? Arena.corruption?
  simp only [hAll, Option.bind_eq_bind, Option.bind_some, Option.pure_def, apply_ite some]
  by_cases hNone : a.marks = []
  · simp only [if_pos hNone]
  · have hBottom : a.marks[0]? = some (a.markAt 0) := by
      simp [markAt, List.length_pos_iff.mpr hNone]
    simp only [if_neg hNone, hBottom, Option.bind_some]
    cases a.marksFault? a.marks.reverse a.chunks.length a.bigBlocks.length <;>
      simp only [apply_ite some]

end Checked

/-! ### The verdict -/

/-- Whatever the fields of an arena hold, its checks come to a verdict without a fault in machine
words, as long as there is a number for each mark and no chunk takes the last byte of the address
space: the checks compute the address behind a chunk, too. They find nothing where nothing is wrong,
and else they report the first rule that breaks: all those before it hold. -/
theorem diagnosis_exact (a : Arena) (hMarks : a.marks.length < 2 ^ 32 - 1)
    (hBlocks : ∀ chunk ∈ a.chunks, chunk.InSpace (2 ^ 64 - 1)) :
    Checked.corruption? a = some a.corruption? ∧ (a.corruption? = none ↔ a.Intact) ∧
      ∀ fault, a.corruption? = some fault ↔
        ∃ before rule after, a.rules = before ++ rule :: after ∧ (∀ r ∈ before, r.holds) ∧
          rule.holds = false ∧ rule.fault = fault := by
  refine ⟨Checked.corruption?_eq hMarks hBlocks, corruption?_eq_none_iff, fun fault => ?_⟩
  rw [corruption?_eq_firstFault]
  exact firstFault_eq_some_iff

/-- An arena with two marks, the upper one foreign and using too much, the lower one without its
number and not the one that was the bottom mark. -/
def tampered : Arena :=
  [.mark 1 .owner 1, .mark 1 .free 4096, .mark 0 .magic 7, .bottomId 9].foldl poke
    ((fresh 3 1024 .none 4096).pushMark 1 112 none)

/-- The owner of the upper mark is what is reported. -/
theorem diagnosis_exact_tampered :
    tampered.marks.length < 2 ^ 32 - 1 ∧ (∀ chunk ∈ tampered.chunks, chunk.InSpace (2 ^ 64 - 1)) ∧
      Checked.corruption? tampered = some (some (.foreignMark 1)) ∧ ¬tampered.Intact ∧
      ∃ before rule after, tampered.rules = before ++ rule :: after ∧ (∀ r ∈ before, r.holds) ∧
        rule.holds = false ∧ rule.fault = .foreignMark 1 := by
  have hMarks : tampered.marks.length < 2 ^ 32 - 1 := by decide
  have hBlocks : ∀ chunk ∈ tampered.chunks, chunk.InSpace (2 ^ 64 - 1) := by decide
  have hFault : tampered.corruption? = some (.foreignMark 1) := by decide +kernel
  obtain ⟨hChecked, hIntact, hFirst⟩ := diagnosis_exact tampered hMarks hBlocks
  rw [hFault] at hChecked
  refine ⟨hMarks, hBlocks, hChecked, ?_, (hFirst _).mp hFault⟩
  rw [← hIntact, hFault]
  exact Option.some_ne_none _

end ArenaRegistry.Arena
