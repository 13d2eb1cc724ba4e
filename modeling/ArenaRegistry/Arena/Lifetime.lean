import ArenaRegistry.Arena.World

/-! The start and the end of an arena. It starts with one chunk, from which the bottom mark is
carved, and gives every block back when it is closed. -/

namespace ArenaRegistry.Arena

variable {σ : Type}

/-- How a start fails that had no first chunk. -/
def startFailure (flags : Flags) (bytes : Nat) : Failure :=
  if flags.panics then .panic (.noFirstChunk bytes) else .error (.outOfMemory bytes)

/-- The host after a start that had no first chunk; a panic leaves no notice. -/
def Host.afterRefusedStart (h : Host σ) (flags : Flags) (bytes : Nat) : Host σ :=
  if flags.panics then h else h.note (.startRefused bytes)

/-- Starts an arena with the given number under settings that are within their bounds. -/
def start (src : BlockSource σ) (settings : Settings) (id : Nat) (host : Host σ) :
    Except Failure (World σ) × Host σ :=
  match settings.validate with
  | .error e => (.error (.error (.setting e)), host)
  | .ok () =>
    let chunkSize := settings.effectiveChunkSize
    match host.acquire src chunkSize with
    | (none, host') =>
      (.error (startFailure settings.flags chunkSize),
        host'.afterRefusedStart settings.flags chunkSize)
    | (some block, host') =>
      let world : World σ :=
        ⟨fresh id chunkSize settings.flags block.start, src, host'.note (.started id chunkSize)⟩
      (.ok world, world.host)

/-- Closes an arena: gives back its big blocks and then its chunks, the newest first. -/
def World.close (w : World σ) : Host σ :=
  (w.host.note (.closing w.arena.id w.arena.chunks.length w.arena.bigBlocks.length)).release w.source
    w.arena.blocks

end ArenaRegistry.Arena
