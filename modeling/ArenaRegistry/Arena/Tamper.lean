import ArenaRegistry.Arena.Corruption

/-! Damaging an arena on purpose, to see what its checks make of it. Each poke overwrites one field
with a number, which is taken modulo the width of the field. -/

namespace ArenaRegistry.Arena

/-- A number as a word of 32 bits. -/
def word32 (n : Int) : Nat := (n % 0x100000000).toNat

/-- A number as a word of 64 bits. -/
def word64 (n : Int) : Nat := (n % 0x10000000000000000).toNat

/-- A field of a mark to overwrite. -/
inductive MarkField
  | magic
  | seq
  /-- The number is added to the owner. -/
  | owner
  | id
  | chunkCount
  | bigCount
  | free
  /-- The last allocation, counted from the start of the mark's chunk. -/
  | lastOffset
  /-- No last allocation. -/
  | lastNone
  /-- The last allocation, at the start of a big block given by its number. -/
  | lastBig
deriving DecidableEq, Repr

/-- A field to overwrite. -/
inductive Poke
  | magic (value : Int)
  | bottomId (value : Int)
  | noMarks
  | mark (depth : Nat) (field : MarkField) (value : Int)
deriving DecidableEq, Repr

variable (a : Arena)

/-- A mark of the arena with one field overwritten. -/
def damage (m : Mark) (value : Int) : MarkField → Mark
  | .magic => { m with magic := word32 value }
  | .seq => { m with seq := word32 value }
  | .owner => { m with owner := word64 (m.owner + value) }
  | .id => { m with id := word64 value }
  | .chunkCount => { m with chunkCount := word64 value }
  | .bigCount => { m with bigCount := word64 value }
  | .free => { m with free := word64 value }
  | .lastOffset => { m with last := some (word64 ((a.chunkAt m.chunkCount).start + value)) }
  | .lastNone => { m with last := none }
  | .lastBig => { m with last := (a.bigBlocks[value.toNat]?).map (·.start) }

/-- The arena with one field overwritten. -/
def poke : Poke → Arena
  | .magic value => { a with magic := word32 value }
  | .bottomId value => { a with bottomId := word64 value }
  | .noMarks => { a with marks := [] }
  | .mark depth field value =>
    { a with marks := a.marks.modify depth fun m => a.damage m value field }

/-- The first rule that the arena breaks once it has been damaged. -/
def corruptionAfter (pokes : List Poke) : Option Corruption := (pokes.foldl poke a).corruption?

end ArenaRegistry.Arena
