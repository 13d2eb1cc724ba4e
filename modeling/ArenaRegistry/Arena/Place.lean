import ArenaRegistry.Arena.Basic

/-! Where an address lies in an arena, said without the address: the number of a block and how far
into it. A place has an address of its own that does not depend on where blocks happen to lie. -/

namespace ArenaRegistry.Arena

inductive BlockKind
  | chunk
  | big
deriving DecidableEq, Repr

/-- A byte of a block, which is given by its number in its stack. -/
structure Place where
  kind : BlockKind
  index : Nat
  offset : Nat
deriving DecidableEq, Repr

namespace Place

def text (p : Place) : String :=
  (match p.kind with
    | .chunk => "c"
    | .big => "b") ++ toString p.index ++ "+" ++ toString p.offset

/-- The steady address of a place: chunks lie `2 ^ 32` apart, and big blocks do so above `2 ^ 48`. -/
def address (p : Place) : Nat :=
  (match p.kind with
    | .chunk => 0
    | .big => 0x1000000000000) + (p.index + 1) * 0x100000000 + p.offset

/-- The place of an address in a stack of blocks. -/
def find? (kind : BlockKind) (address : Nat) (blocks : List Span) : Option Place := do
  let index ← blocks.findIdx? fun b => decide (b.Contains address)
  let block ← blocks[index]?
  return ⟨kind, index, address - block.start⟩

end Place

def place? (a : Arena) (address : Nat) : Option Place :=
  Place.find? .chunk address a.chunks <|> Place.find? .big address a.bigBlocks

/-- The steady address of an address in an arena. -/
def steadyAddress (a : Arena) (address : Nat) : Nat :=
  ((a.place? address).map Place.address).getD address

end ArenaRegistry.Arena
