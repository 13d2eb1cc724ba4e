import ArenaRegistry.Arena.Alloc

/-! Growing and shrinking the last allocation under the current mark. One in a chunk grows in place
while the chunk has room and moves to new memory otherwise. A big block moves to another one and is
given back; shrinking it does nothing. These calls never panic. -/

namespace ArenaRegistry.Arena.World

variable {σ : Type} (w : World σ)

/-- Moves the last big block, whose first `used` bytes matter, to one of `n` bytes. -/
def moveBig (last used n : Nat) : Except Error Nat × World σ :=
  match w.acquire n with
  | (.error e, w') => (.error e, w')
  | (.ok block, w') =>
    let copied := w'.copy last block.start used
    let old := w'.arena.topBig?.toList
    (.ok block.start, (copied.release old).withArena (copied.arena.replaceBig block))

/-- Moves the last allocation, whose first `used` bytes matter, to `n` bytes elsewhere. -/
def moveFromChunk (last used n : Nat) : Except Error Nat × World σ :=
  match w.carve n .exact with
  | (.error e, w') => (.error e, w')
  | (.ok span, w') => (.ok span.start, w'.copy last span.start used)

/-- Moves the last allocation to where it has `grown` bytes more. -/
def moveLast (last increment grown : Nat) : Except Error Nat × World σ :=
  let used := w.arena.sizeOfLast last
  if Size.largest < used + grown then (.error (.invalidSize increment), w)
  else if w.arena.isBig last then w.moveBig last used (used + grown)
  else w.moveFromChunk last used (used + grown)

/-- Makes the last allocation larger by `increment` bytes, moving it only if that is allowed, and
returns where it is then. Without one it is an allocation of that size. -/
def expandLast (increment : Nat) (inPlace : Bool) : Except Error Nat × World σ :=
  match w.arena.top.last with
  | none => addressOf (w.carve increment .exact)
  | some last =>
    if Size.largest < increment then (.error (.invalidSize increment), w)
    else
      let grown := Size.roundUp increment
      if !w.arena.isBig last ∧ grown ≤ w.arena.remaining then
        (.ok last, w.withArena (w.arena.extend grown))
      else if inPlace then (.error (.cannotExpandInPlace increment), w)
      else w.moveLast last increment grown

/-- Makes the last allocation smaller by `decrement` bytes, rounded down to whole grains and ignored
when there are not so many. -/
def shrinkLast (decrement : Nat) : Except Error Nat × World σ :=
  match w.arena.top.last with
  | none => (.error .noLastAllocation, w)
  | some last =>
    let cut := Size.roundDown decrement
    if w.arena.isBig last ∨ w.arena.sizeOfLast last < cut then (.ok last, w)
    else (.ok last, w.withArena (w.arena.retract cut))

/-- Gives the last allocation another size, moving it only if that is allowed. -/
def resizeLast (size : Nat) (inPlace : Bool) : Except Error Nat × World σ :=
  match w.arena.top.last with
  | none => (.error .noLastAllocation, w)
  | some last =>
    if Size.largest < size then (.error (.invalidSize size), w)
    else
      let wanted := Size.roundUp size
      let used := w.arena.sizeOfLast last
      if !w.arena.isBig last ∧ wanted ≤ used then
        (.ok last, w.withArena (w.arena.retract (used - wanted)))
      else if wanted ≤ used then w.shrinkLast (used - wanted)
      else w.expandLast (wanted - used) inPlace

end ArenaRegistry.Arena.World
