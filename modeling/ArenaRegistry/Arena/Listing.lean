import ArenaRegistry.Arena.Place
import ArenaRegistry.Text.Tree

/-! What an arena holds, as counts and as a full listing of its blocks and marks. -/

namespace ArenaRegistry.Arena

/-- How much an arena holds. -/
structure Stats where
  chunks : Nat
  bigBlocks : Nat
  marks : Nat
  chunkBytes : Nat
  bigBytes : Nat
  remaining : Nat
deriving DecidableEq, Repr

def Stats.totalBytes (s : Stats) : Nat := s.chunkBytes + s.bigBytes

def stats (a : Arena) : Stats where
  chunks := a.chunks.length
  bigBlocks := a.bigBlocks.length
  marks := a.marks.length
  chunkBytes := Span.totalSize a.chunks
  bigBytes := Span.totalSize a.bigBlocks
  remaining := a.remaining

def summary (a : Arena) : String :=
  "Lifo \x7b id: " ++ toString a.id ++ ", chunk_size: " ++ toString a.chunkSize ++ ", chunks: " ++
    toString a.chunks.length ++ ", big_blocks: " ++ toString a.bigBlocks.length ++ ", marks: " ++
    toString a.marks.length ++ " \x7d"

/-- What a listing says about a mark. -/
structure MarkLine where
  magic : Nat
  seq : Nat
  chunkCount : Nat
  bigCount : Nat
  free : Nat
  last : Option Nat
deriving DecidableEq, Repr

/-- A listing of an arena, its stacks bottom first. -/
structure Listing where
  magic : Nat
  chunkSize : Nat
  flags : Flags
  chunks : List Span
  bigBlocks : List Span
  marks : List MarkLine
deriving DecidableEq, Repr

def listing (a : Arena) : Listing where
  magic := a.magic
  chunkSize := a.chunkSize
  flags := a.flags
  chunks := a.chunks
  bigBlocks := a.bigBlocks
  marks := a.marks.map fun m => ⟨m.magic, m.seq, m.chunkCount, m.bigCount, m.free, m.last⟩

namespace Listing

/-- The listing with each address replaced. -/
def mapAddresses (f : Nat → Nat) (l : Listing) : Listing :=
  { l with
    chunks := l.chunks.map fun b => { b with start := f b.start }
    bigBlocks := l.bigBlocks.map fun b => { b with start := f b.start }
    marks := l.marks.map fun m => { m with last := m.last.map f } }

def blockTree (b : Span) : Text.Tree :=
  .record [("address", .number b.start), ("size", .number b.size)]

def markTree (m : MarkLine) : Text.Tree :=
  .record [("magic", .number m.magic), ("seq", .number m.seq),
    ("chunk_count", .number m.chunkCount), ("big_block_count", .number m.bigCount),
    ("free_offset", .number m.free), ("last_alloc", (m.last.map .number).getD .null)]

def tree (l : Listing) : Text.Tree :=
  .record [("magic", .number l.magic), ("chunk_size", .number l.chunkSize),
    ("flags", .number l.flags.bits.toNat), ("chunks", .list (l.chunks.map blockTree)),
    ("big_blocks", .list (l.bigBlocks.map blockTree)), ("marks", .list (l.marks.map markTree))]

def text (l : Listing) : String := l.tree.text

end Listing

/-- The listing of an arena with steady addresses. -/
def steadyListing (a : Arena) : Listing := a.listing.mapAddresses a.steadyAddress

end ArenaRegistry.Arena
