import ArenaRegistry.Arena.Basic

/-! Checking an arena. The checks hold for any value of the type, however damaged; the first one that
fails is reported. Marks are checked from the current one down to the bottom mark. -/

namespace ArenaRegistry.Arena

/-- A rule that an arena breaks. -/
inductive Corruption
  /-- The arena does not carry its number. -/
  | badArenaMagic
  /-- The mark counts no chunk, or more blocks than there are. -/
  | brokenBlockList (depth : Nat)
  | missingMarks
  /-- The mark does not carry its number. -/
  | badMarkMagic (depth : Nat)
  /-- The mark is not the next after the one below it. -/
  | sequenceGap (depth expected found : Nat)
  | foreignMark (depth : Nat)
  /-- The lowest mark is not the bottom mark. -/
  | bottomMismatch
  /-- The last allocation lies below the mark's chunk. -/
  | lastBelowChunk (depth : Nat)
  /-- The last allocation lies above the mark's chunk and is no big block of its. -/
  | lastOutsideChunk (depth : Nat)
  /-- More of the chunk is used than it has. -/
  | freePastChunkEnd (depth : Nat)
deriving DecidableEq, Repr

namespace Corruption

/-- The negative number of a rule. -/
def code : Corruption → Int
  | badArenaMagic => -1
  | brokenBlockList _ => -2
  | missingMarks => -3
  | badMarkMagic _ => -4
  | sequenceGap _ _ _ => -5
  | foreignMark _ => -6
  | bottomMismatch => -7
  | lastBelowChunk _ => -8
  | lastOutsideChunk _ => -9
  | freePastChunkEnd _ => -10

def message : Corruption → String
  | badArenaMagic => "arena magic is corrupt"
  | brokenBlockList depth =>
    "mark " ++ toString depth ++ " refers to chunks or big blocks that do not exist"
  | missingMarks => "arena has no bottom mark"
  | badMarkMagic depth => "mark " ++ toString depth ++ " magic is corrupt"
  | sequenceGap depth expected found =>
    "mark " ++ toString depth ++ " has sequence " ++ toString found ++ ", expected " ++
      toString expected
  | foreignMark depth => "mark " ++ toString depth ++ " belongs to another arena"
  | bottomMismatch => "mark walk did not end at the bottom mark"
  | lastBelowChunk depth => "mark " ++ toString depth ++ " last allocation lies below its chunk"
  | lastOutsideChunk depth =>
    "mark " ++ toString depth ++ " last allocation is outside its chunk and not a big block"
  | freePastChunkEnd depth =>
    "mark " ++ toString depth ++ " free offset is past the end of its chunk"

end Corruption

variable (a : Arena)

/-- What is wrong with where a mark's last allocation lies, given its chunk. -/
def lastFault? (m : Mark) (depth : Nat) (chunk : Span) : Option Corruption :=
  match m.last with
  | none => none
  | some address =>
    if (a.bigAt? m.bigCount).any (·.start == address) then none
    else if address < chunk.start then some (.lastBelowChunk depth)
    else if chunk.Contains address then none
    else some (.lastOutsideChunk depth)

/-- What is wrong with the mark at a depth, if the marks above it count so many blocks. -/
def markFault? (m : Mark) (depth chunkLimit bigLimit : Nat) : Option Corruption :=
  if m.magic ≠ markMagic then some (.badMarkMagic depth)
  else if m.seq ≠ depth + 1 then some (.sequenceGap depth (depth + 1) m.seq)
  else if m.owner ≠ a.id then some (.foreignMark depth)
  else if m.chunkCount = 0 ∨ chunkLimit < m.chunkCount ∨ bigLimit < m.bigCount then
    some (.brokenBlockList depth)
  else
    let chunk := a.chunkAt m.chunkCount
    match a.lastFault? m depth chunk with
    | some fault => some fault
    | none => if chunk.size < m.free then some (.freePastChunkEnd depth) else none

/-- The first fault of the marks of a list, the uppermost of which comes first. -/
def marksFault? : (fromTop : List Mark) → (chunkLimit bigLimit : Nat) → Option Corruption
  | [], _, _ => none
  | m :: below, chunkLimit, bigLimit =>
    match a.markFault? m below.length chunkLimit bigLimit with
    | some fault => some fault
    | none => marksFault? below m.chunkCount m.bigCount

/-- The first rule that the arena breaks. -/
def corruption? : Option Corruption :=
  if a.magic ≠ arenaMagic then some .badArenaMagic
  else if a.marks = [] then some .missingMarks
  else
    match a.marksFault? a.marks.reverse a.chunks.length a.bigBlocks.length with
    | some fault => some fault
    | none => if (a.markAt 0).id ≠ a.bottomId then some .bottomMismatch else none

def Valid : Prop := a.corruption? = none

instance : Decidable a.Valid := inferInstanceAs (Decidable (_ = _))

end ArenaRegistry.Arena
