import ArenaRegistry.Arena.Alloc

/-! Marks and frames. Pushing a mark freezes what lies under it; popping one gives back every block
got since then, and pops the marks above it too. A frame is a mark with one allocation, both of
which are carved at once when the current chunk has room for them. -/

namespace ArenaRegistry.Arena.World

variable {σ : Type} (w : World σ)

/-- Cuts the arena back to the mark at a depth and gives back the blocks above it. -/
def cutTo (depth : Nat) : World σ :=
  ((w.release (w.arena.blocksAbove depth)).withArena (w.arena.cutTo depth)).note
    (.cutBack w.arena.id depth)

/-- Puts a mark on the stack that owns so many chunks and has used so much of the last one. -/
def addMark (chunkCount free : Nat) : Handle × World σ :=
  let arena := w.arena.pushMark chunkCount free none
  (arena.topHandle, (w.withArena arena).note (.markPushed arena.id arena.depth))

/-- Puts a mark on the stack, at the start of a chunk of its own if the current one has no room. -/
def enterMark : Except Error Handle × World σ :=
  if footprint ≤ w.arena.remaining then
    let (handle, w') := w.addMark w.arena.top.chunkCount (w.arena.top.free + footprint)
    (.ok handle, w')
  else
    match w.acquire w.arena.chunkSize with
    | (.error e, w') => (.error e, w')
    | (.ok block, w') =>
      let arena := w'.arena.addChunk block
      let (handle, w'') := (w'.withArena arena).addMark arena.chunks.length footprint
      (.ok handle, w'')

def pushMark : Except Failure Handle × World σ := policed w.enterMark

/-- Puts a mark on the stack whose first allocation follows it in the same chunk. -/
def fuseFrame (n : Nat) (claim : Claim) : Span × World σ :=
  let start := w.arena.top.free + footprint
  let taken := claim.taken n (w.arena.chunk.size - start)
  (⟨w.arena.chunk.start + start, taken⟩,
    w.withArena (w.arena.pushMark w.arena.top.chunkCount (start + taken)
      (some (w.arena.chunk.start + start))))

/-- Pushes a mark and carves out a request under it; if that fails, the mark is popped again. -/
def enterFrame (size : Nat) (claim : Claim) : Except Error Span × World σ :=
  if InvalidRequest size then (.error (.invalidSize size), w)
  else if w.arena.fitsFrame (Size.roundUp size) then
    let (span, w') := w.fuseFrame (Size.roundUp size) claim
    (.ok span, w')
  else
    match w.enterMark with
    | (.error e, w') => (.error e, w')
    | (.ok handle, w') =>
      match w'.carve size claim with
      | (.ok span, w'') => (.ok span, w'')
      | (.error e, w'') => (.error e, w''.cutTo (handle.depth - 1))

/-- Pushes a mark, allocates `size` bytes under it and returns their address. -/
def pushFrame (size : Nat) : Except Failure Nat × World σ :=
  policed (addressOf (w.enterFrame size .exact))

/-- Pushes a mark and allocates at least `size` bytes under it, the rest of the current chunk if the
mark and they fit in it. -/
def pushFrameMin (size : Nat) : Except Failure Span × World σ := policed (w.enterFrame size .rest)

/-- Pops the mark of a handle and every mark above it. The bottom mark is never popped, and a handle
of no mark on the stack is refused. -/
def popMark (h : Handle) : Except Error Unit × World σ :=
  if w.arena.isLive h then
    if h.isBottom then (.ok (), w) else (.ok (), w.cutTo (h.depth - 1))
  else (.error (.invalidMark h.id), w)

/-- Pops the current mark, unless it is the bottom mark. -/
def popFrame : World σ := if w.arena.depth = 0 then w else w.cutTo (w.arena.depth - 1)

end ArenaRegistry.Arena.World
