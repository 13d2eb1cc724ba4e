import ArenaRegistry.Arena.Memory
import ArenaRegistry.Arena.Settings

/-! An arena: a stack of chunks, a stack of big blocks, and a stack of marks, each of them bottom
first. A mark says how much of the two block stacks is its own or lies below it, and how far its
current chunk is used. Memory is carved from the current chunk of the top mark; each mark takes some
of it too. The functions here say what an arena is and how it changes once its memory is at hand;
getting memory is left to others. -/

namespace ArenaRegistry

namespace Arena

/-- The number that a sound arena carries. -/
def arenaMagic : Nat := 0x4c69666f

/-- The number that a sound mark carries. -/
def markMagic : Nat := 0xa0193d4f

/-- The bytes of a chunk that a mark takes. -/
def footprint : Nat := 56

/-- A point on the mark stack, with the arena's state under it. -/
structure Mark where
  magic : Nat
  /-- One for the bottom mark, and one more on each level. -/
  seq : Nat
  /-- What a handle of this mark has to name. -/
  id : Nat
  /-- The arena that the mark belongs to. -/
  owner : Nat
  /-- The chunks of this mark and of those below it. -/
  chunkCount : Nat
  /-- The big blocks of this mark and of those below it. -/
  bigCount : Nat
  /-- How many bytes of the current chunk are used. -/
  free : Nat
  /-- The last allocation since the mark was pushed. -/
  last : Option Nat
deriving DecidableEq, Repr, Inhabited

/-- What a caller keeps of a pushed mark. -/
structure Handle where
  owner : Nat
  depth : Nat
  id : Nat
deriving DecidableEq, Repr

def Handle.isBottom (h : Handle) : Bool := h.depth == 0

end Arena

/-- A chunked allocator with a stack of marks. -/
structure Arena where
  magic : Nat
  id : Nat
  chunkSize : Nat
  flags : Arena.Flags
  chunks : List Arena.Span
  bigBlocks : List Arena.Span
  marks : List Arena.Mark
  bottomId : Nat
  nextMarkId : Nat
deriving DecidableEq, Repr

namespace Arena

/-- The arena whose first chunk holds no more than the bottom mark. -/
def fresh (id chunkSize : Nat) (flags : Flags) (start : Nat) : Arena where
  magic := arenaMagic
  id := id
  chunkSize := chunkSize
  flags := flags
  chunks := [⟨start, chunkSize⟩]
  bigBlocks := []
  marks := [⟨markMagic, 1, 0, id, 1, 0, footprint, none⟩]
  bottomId := 0
  nextMarkId := 1

variable (a : Arena)

def top : Mark := a.marks.getLast?.getD default

/-- The number of marks above the bottom mark. -/
def depth : Nat := a.marks.length - 1

/-- The mark at a depth; the bottom mark is at depth zero. -/
def markAt (depth : Nat) : Mark := a.marks[depth]?.getD default

/-- The last of so many chunks. -/
def chunkAt (count : Nat) : Span := a.chunks[count - 1]?.getD default

/-- The last of so many big blocks, if there is one. -/
def bigAt? (count : Nat) : Option Span := if count = 0 then none else a.bigBlocks[count - 1]?

/-- The chunk that the current mark carves from. -/
def chunk : Span := a.chunkAt a.top.chunkCount

def remaining : Nat := a.chunk.size - a.top.free

def nextFree : Nat := a.chunk.start + a.top.free

/-- The big block that the current mark counts last. -/
def topBig? : Option Span := a.bigAt? a.top.bigCount

/-- Whether an allocation is the last big block of the current mark. -/
def isBig (address : Nat) : Bool := a.topBig?.any (·.start == address)

/-- The size of the last allocation of the current mark, given where it is: that of its big block,
or what lies between it and the first free byte. -/
def sizeOfLast (address : Nat) : Nat :=
  match a.topBig?.filter (·.start == address) with
  | some block => block.size
  | none => a.top.free - (address - a.chunk.start)

def lastSize? : Option Nat := a.top.last.map a.sizeOfLast

def handleAt (depth : Nat) : Handle := ⟨a.id, depth, (a.markAt depth).id⟩

def topHandle : Handle := a.handleAt a.depth

def bottomHandle : Handle := a.handleAt 0

def isLive (h : Handle) : Bool :=
  h.owner == a.id && (a.marks[h.depth]?).any (·.id == h.id)

/-! ### Changes to the current mark and to the stacks -/

def mapTop (f : Mark → Mark) : Arena := { a with marks := a.marks.modify (a.marks.length - 1) f }

/-- The next `n` bytes of the current chunk become the last allocation. -/
def bump (n : Nat) : Arena :=
  a.mapTop fun m => { m with free := m.free + n, last := some a.nextFree }

/-- The last allocation takes the next `n` bytes of the current chunk too. -/
def extend (n : Nat) : Arena := a.mapTop fun m => { m with free := m.free + n }

/-- The last allocation gives its last `n` bytes back to the current chunk. -/
def retract (n : Nat) : Arena := a.mapTop fun m => { m with free := m.free - n }

/-- A new chunk becomes current, and its first `n` bytes the last allocation. -/
def openChunk (block : Span) (n : Nat) : Arena :=
  { a with chunks := a.chunks ++ [block] }.mapTop fun m =>
    { m with chunkCount := a.chunks.length + 1, free := n, last := some block.start }

/-- A new big block becomes the last allocation. -/
def addBig (block : Span) : Arena :=
  { a with bigBlocks := a.bigBlocks ++ [block] }.mapTop fun m =>
    { m with bigCount := a.bigBlocks.length + 1, last := some block.start }

/-- Another block takes the place of the current mark's last big block. -/
def replaceBig (block : Span) : Arena :=
  { a with bigBlocks := a.bigBlocks.set (a.top.bigCount - 1) block }.mapTop fun m =>
    { m with last := some block.start }

/-- A new mark on top of the stack. -/
def pushMark (chunkCount free : Nat) (last : Option Nat) : Arena :=
  { a with
    marks := a.marks ++
      [⟨markMagic, a.top.seq + 1, a.nextMarkId, a.id, chunkCount, a.top.bigCount, free, last⟩]
    nextMarkId := a.nextMarkId + 1 }

/-- A new chunk on the stack, which no mark counts yet. -/
def addChunk (block : Span) : Arena := { a with chunks := a.chunks ++ [block] }

/-- The blocks above the mark at a depth, in the order in which they are given back: big blocks
first, and the newest of either kind first. -/
def blocksAbove (depth : Nat) : List Span :=
  (a.bigBlocks.drop (a.markAt depth).bigCount).reverse ++
    (a.chunks.drop (a.markAt depth).chunkCount).reverse

/-- Every block, in the order in which they are given back. -/
def blocks : List Span := a.bigBlocks.reverse ++ a.chunks.reverse

/-- The arena with the mark at a depth as the current one, and without what lies above it. -/
def cutTo (depth : Nat) : Arena :=
  { a with
    chunks := a.chunks.take (a.markAt depth).chunkCount
    bigBlocks := a.bigBlocks.take (a.markAt depth).bigCount
    marks := a.marks.take (depth + 1) }

/-! ### The way of a request -/

/-- Where the memory for a request comes from. -/
inductive Route
  /-- The current chunk has room for it. -/
  | bump
  /-- A new chunk of so many bytes is opened for it. -/
  | chunk (bytes : Nat)
  /-- It gets a big block of its own, and the room in the current chunk is kept. -/
  | big
deriving DecidableEq, Repr

/-- The size of a chunk opened for a request: larger than usual for one of more than half a chunk,
so that the next ones fit too, as long as that may be requested. -/
def chunkSizeFor (n : Nat) : Nat :=
  if a.chunkSize / 2 < n then
    if n + a.chunkSize ≤ Size.largest then n + a.chunkSize else n
  else a.chunkSize

/-- The way of a request for `n` bytes: a chunk is given up for a new one only when less than an
eighth of a chunk is left in it. -/
def route (n : Nat) : Route :=
  if n ≤ a.remaining then .bump
  else if a.remaining < a.chunkSize / 8 then .chunk (a.chunkSizeFor n)
  else .big

/-- Whether a mark and a request for `n` bytes fit in the current chunk together. -/
def fitsFrame (n : Nat) : Bool := n + footprint ≤ a.chunk.size - a.top.free

/-! ### What a change leaves of each mark -/

theorem map_modify_of_eq {α β : Type} {f : α → α} {g : α → β} (h : ∀ x, g (f x) = g x) (xs : List α)
    (i : Nat) : (xs.modify i f).map g = xs.map g := by
  induction xs generalizing i with
  | nil => cases i <;> rfl
  | cons x xs ih =>
    cases i with
    | zero => rw [List.modify_zero_cons, List.map_cons, List.map_cons, h]
    | succ i => rw [List.modify_succ_cons, List.map_cons, List.map_cons, ih]

theorem map_marks_mapTop {β : Type} {f : Mark → Mark} {g : Mark → β} (h : ∀ m, g (f m) = g m) :
    (a.mapTop f).marks.map g = a.marks.map g :=
  map_modify_of_eq h a.marks _

/-! ### The current mark as the last one -/

variable {a}

/-- An arena with a mark has the current one as the last. -/
theorem exists_marks_eq (h : a.marks ≠ []) : ∃ below, a.marks = below ++ [a.top] := by
  refine ⟨a.marks.dropLast, ?_⟩
  have hTop : a.top = a.marks.getLast h := by simp [top, List.getLast?_eq_some_getLast h]
  rw [hTop, List.dropLast_concat_getLast h]

variable {below : List Mark} {m : Mark}

theorem top_of_marks (h : a.marks = below ++ [m]) : a.top = m := by simp [top, h]

theorem marks_mapTop (h : a.marks = below ++ [m]) (f : Mark → Mark) :
    (a.mapTop f).marks = below ++ [f m] := by
  have hLast : ∀ l : List Mark, (l ++ [m]).modify l.length f = l ++ [f m] := by
    intro l
    induction l with
    | nil => rfl
    | cons x l ih => simpa using ih
  simp [mapTop, h, hLast]

theorem marks_pushMark (chunkCount free : Nat) (last : Option Nat) :
    (a.pushMark chunkCount free last).marks = a.marks ++
      [⟨markMagic, a.top.seq + 1, a.nextMarkId, a.id, chunkCount, a.top.bigCount, free, last⟩] :=
  rfl

end Arena

end ArenaRegistry
