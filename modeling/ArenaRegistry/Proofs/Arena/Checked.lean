import ArenaRegistry.Arena.Op
import Mathlib.Algebra.Group.Nat.Defs

/-! The calls on an arena in machine words, with every step of them that could go wrong. Sizes and
addresses are words of 64 bits, and the place of a mark is one of 32. A sum that does not fit in its
word, a difference below zero, an index behind the end of a stack and an offset behind the end of a
block are faults, which leave a call without a result. -/

namespace ArenaRegistry.Arena.Checked

/-- A sum that fits in a word of so many bits. -/
def add (bits a b : Nat) : Option Nat := if a + b < 2 ^ bits then some (a + b) else none

def sub (a b : Nat) : Option Nat := if b ≤ a then some (a - b) else none

/-- The address at an offset into a block. -/
def addressIn (block : Span) (offset : Nat) : Option Nat :=
  if offset ≤ block.size then add 64 block.start offset else none

/-- The least whole number of grains, from the next one less a byte. -/
def roundUp (n : Nat) : Option Nat := do
  let next ← add 64 n Size.grain
  let padded ← sub next 1
  return padded / Size.grain * Size.grain

/-! ### Reading an arena -/

section Arena

variable (a : Arena)

def topIndex : Option Nat := sub a.marks.length 1

def top : Option Mark := do a.marks[← topIndex a]?

def chunk : Option Span := do
  let top ← top a
  a.chunks[← sub top.chunkCount 1]?

def remaining : Option Nat := do
  let chunk ← chunk a
  let top ← top a
  sub chunk.size top.free

/-- The last big block of the current mark, which must count one. -/
def topBig : Option Span := do
  let top ← top a
  a.bigBlocks[← sub top.bigCount 1]?

def isBig (address : Nat) : Option Bool := do
  let top ← top a
  if 0 < top.bigCount then
    let block ← topBig a
    return block.start == address
  else return false

/-- The size of the last allocation, which is told to be a big block or not. -/
def sizeOfLast (address : Nat) (big : Bool) : Option Nat := do
  if big then
    let block ← topBig a
    return block.size
  else
    let chunk ← chunk a
    let offset ← sub address chunk.start
    let top ← top a
    sub top.free offset

def lastSize : Option (Option Nat) := do
  let top ← top a
  match top.last with
  | none => return none
  | some last =>
    let big ← isBig a last
    let size ← sizeOfLast a last big
    return some size

def chunkSizeFor (n : Nat) : Option Nat := do
  if a.chunkSize / 2 < n then
    let bytes ← add 64 n a.chunkSize
    return if bytes ≤ Size.largest then bytes else n
  else return a.chunkSize

def handleAt (depth : Nat) : Option Handle := do
  let m ← a.marks[depth]?
  return ⟨a.id, depth, m.id⟩

def topHandle : Option Handle := do handleAt a (← topIndex a)

/-- A new mark on top of the stack, one place above the current one, under the next number. -/
def pushMark (chunkCount free : Nat) (last : Option Nat) : Option Arena := do
  let top ← top a
  let seq ← add 32 top.seq 1
  let next ← add 64 a.nextMarkId 1
  return { a with
    marks := a.marks ++
      [⟨markMagic, seq, a.nextMarkId, a.id, chunkCount, top.bigCount, free, last⟩]
    nextMarkId := next }

end Arena

/-! ### Allocating -/

section World

variable {σ : Type} (w : World σ)

/-- Sets what is used of the current chunk, and which allocation is the last. -/
def setTop (free : Nat) (last : Option Nat) : World σ :=
  w.withArena (w.arena.mapTop fun m => { m with free, last })

def carve (size : Nat) (claim : Claim) : Option (Except Error Span × World σ) := do
  if InvalidRequest size then return (.error (.invalidSize size), w)
  let n ← roundUp size
  let chunk ← chunk w.arena
  let top ← top w.arena
  let left ← sub chunk.size top.free
  if n ≤ left then
    let taken := claim.taken n left
    let address ← addressIn chunk top.free
    let free ← add 64 top.free taken
    return (.ok ⟨address, taken⟩, setTop w free (some address))
  else if left < w.arena.chunkSize / 8 then
    let bytes ← chunkSizeFor w.arena n
    return w.allocInChunk bytes n
  else return w.allocBig n

/-! ### Marks and frames -/

def cutTo (depth : Nat) : Option (World σ) := do
  let _ ← w.arena.marks[depth]?
  let _ ← add 64 depth 1
  return w.cutTo depth

def addMark (chunkCount free : Nat) : Option (Handle × World σ) := do
  let arena ← pushMark w.arena chunkCount free none
  let depth ← sub arena.marks.length 1
  let handle ← topHandle arena
  return (handle, (w.withArena arena).note (.markPushed arena.id depth))

def enterMark : Option (Except Error Handle × World σ) := do
  let top ← top w.arena
  let left ← remaining w.arena
  if footprint ≤ left then
    let free ← add 64 top.free footprint
    let (handle, w') ← addMark w top.chunkCount free
    return (.ok handle, w')
  else
    match w.acquire w.arena.chunkSize with
    | (.error e, w') => return (.error e, w')
    | (.ok block, w') =>
      let arena := w'.arena.addChunk block
      let (handle, w'') ← addMark (w'.withArena arena) arena.chunks.length footprint
      return (.ok handle, w'')

def fuseFrame (n : Nat) (claim : Claim) : Option (Span × World σ) := do
  let chunk ← chunk w.arena
  let top ← top w.arena
  let start ← add 64 top.free footprint
  let stop ← match claim with
    | .exact => add 64 start n
    | .rest => some chunk.size
  let address ← addressIn chunk start
  let arena ← pushMark w.arena top.chunkCount stop (some address)
  let taken ← sub stop start
  return (⟨address, taken⟩, w.withArena arena)

def enterFrame (size : Nat) (claim : Claim) : Option (Except Error Span × World σ) := do
  if InvalidRequest size then return (.error (.invalidSize size), w)
  let n ← roundUp size
  let chunk ← chunk w.arena
  let top ← top w.arena
  let total ← add 64 n footprint
  let left ← sub chunk.size top.free
  if total ≤ left then
    let (span, w') ← fuseFrame w n claim
    return (.ok span, w')
  else
    match ← enterMark w with
    | (.error e, w') => return (.error e, w')
    | (.ok handle, w') =>
      match ← carve w' size claim with
      | (.ok span, w'') => return (.ok span, w'')
      | (.error e, w'') =>
        let depth ← sub handle.depth 1
        let back ← cutTo w'' depth
        return (.error e, back)

def isLive (a : Arena) (h : Handle) : Option Bool := do
  if h.owner = a.id ∧ h.depth < a.marks.length then
    let m ← a.marks[h.depth]?
    return m.id == h.id
  else return false

def popMark (h : Handle) : Option (Except Error Unit × World σ) := do
  if ← isLive w.arena h then
    if h.isBottom then return (.ok (), w)
    let depth ← sub h.depth 1
    let back ← cutTo w depth
    return (.ok (), back)
  else return (.error (.invalidMark h.id), w)

def popFrame : Option (World σ) := do
  if 1 < w.arena.marks.length then cutTo w (← sub w.arena.marks.length 2) else return w

/-! ### The last allocation -/

def moveBig (last used n : Nat) : Option (Except Error Nat × World σ) := do
  match w.acquire n with
  | (.error e, w') => return (.error e, w')
  | (.ok block, w') =>
    let copied := w'.copy last block.start used
    let old ← topBig copied.arena
    return (.ok block.start, (copied.release [old]).withArena (copied.arena.replaceBig block))

def moveFromChunk (last used n : Nat) : Option (Except Error Nat × World σ) := do
  match ← carve w n .exact with
  | (.error e, w') => return (.error e, w')
  | (.ok span, w') => return (.ok span.start, w'.copy last span.start used)

def moveLast (last : Nat) (big : Bool) (increment grown : Nat) :
    Option (Except Error Nat × World σ) := do
  let used ← sizeOfLast w.arena last big
  let size ← add 64 used grown
  if Size.largest < size then return (.error (.invalidSize increment), w)
  if big then moveBig w last used size else moveFromChunk w last used size

def expandLast (increment : Nat) (inPlace : Bool) : Option (Except Error Nat × World σ) := do
  let top ← top w.arena
  match top.last with
  | none => return World.addressOf (← carve w increment .exact)
  | some last =>
    if Size.largest < increment then return (.error (.invalidSize increment), w)
    let grown ← roundUp increment
    let big ← isBig w.arena last
    -- What is left of the chunk is looked at only where the allocation lies in a chunk.
    let room ← if big then some false else (remaining w.arena).map (decide <| grown ≤ ·)
    if room then
      let free ← add 64 top.free grown
      return (.ok last, setTop w free top.last)
    else if inPlace then return (.error (.cannotExpandInPlace increment), w)
    else moveLast w last big increment grown

def shrinkLast (decrement : Nat) : Option (Except Error Nat × World σ) := do
  let top ← top w.arena
  match top.last with
  | none => return (.error .noLastAllocation, w)
  | some last =>
    if ← isBig w.arena last then return (.ok last, w)
    let used ← sizeOfLast w.arena last false
    let cut := Size.roundDown decrement
    if cut ≤ used then
      let free ← sub top.free cut
      return (.ok last, setTop w free top.last)
    else return (.ok last, w)

def resizeLast (size : Nat) (inPlace : Bool) : Option (Except Error Nat × World σ) := do
  let top ← top w.arena
  match top.last with
  | none => return (.error .noLastAllocation, w)
  | some last =>
    if Size.largest < size then return (.error (.invalidSize size), w)
    let wanted ← roundUp size
    let big ← isBig w.arena last
    let used ← sizeOfLast w.arena last big
    if big = false ∧ wanted ≤ used then
      let cut ← sub used wanted
      let free ← sub top.free cut
      return (.ok last, setTop w free top.last)
    else if wanted ≤ used then shrinkLast w (← sub used wanted)
    else expandLast w (← sub wanted used) inPlace

/-! ### Calls -/

def step : Op → Option (Except Failure Reply × World σ)
  | .alloc size => do
    return replied .address (World.policed (World.addressOf (← carve w size .exact)))
  | .allocMin size => do return replied .span (World.policed (← carve w size .rest))
  | .pushMark => do return replied .handle (World.policed (← enterMark w))
  | .pushFrame size => do
    return replied .address (World.policed (World.addressOf (← enterFrame w size .exact)))
  | .pushFrameMin size => do return replied .span (World.policed (← enterFrame w size .rest))
  | .popMark h => do return replied (fun _ => .done) (World.reported (← popMark w h))
  | .popFrame => do return (.ok .done, ← popFrame w)
  | .expandLast increment inPlace => do
    return replied .address (World.reported (← expandLast w increment inPlace))
  | .shrinkLast decrement => do return replied .address (World.reported (← shrinkLast w decrement))
  | .resizeLast size inPlace => do
    return replied .address (World.reported (← resizeLast w size inPlace))

/-- The world that a run leaves, if no call of it faults. -/
def run (ops : List Op) : Option (World σ) := ops.foldlM (fun w op => (step w op).map Prod.snd) w

end World

end ArenaRegistry.Arena.Checked
