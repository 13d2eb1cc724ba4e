import ArenaRegistry.Arena.World

/-! Allocating. A request is rounded up to whole grains and carved from the current chunk if it fits;
otherwise it goes into a new chunk or gets a big block. One that fits may claim the rest of the
chunk as well. -/

namespace ArenaRegistry.Arena

/-- How much of the current chunk a request that fits in it takes. -/
inductive Claim
  /-- What it needs. -/
  | exact
  /-- All that is left. -/
  | rest
deriving DecidableEq, Repr

/-- The bytes taken by a request for `needed` bytes, where `left` are left. -/
def Claim.taken : Claim → (needed left : Nat) → Nat
  | exact, needed, _ => needed
  | rest, _, left => left

/-- A size that no request may have. -/
def InvalidRequest (size : Nat) : Prop := size = 0 ∨ Size.largest < size

instance (size : Nat) : Decidable (InvalidRequest size) := inferInstanceAs (Decidable (_ ∨ _))

namespace World

variable {σ : Type} (w : World σ)

/-- Opens a new chunk and allocates its first `n` bytes. -/
def allocInChunk (bytes n : Nat) : Except Error Span × World σ :=
  match w.acquire bytes with
  | (.error e, w') => (.error e, w')
  | (.ok block, w') =>
    let arena := w'.arena.openChunk block n
    (.ok ⟨block.start, n⟩,
      (w'.withArena arena).note (.chunkOpened arena.id arena.chunks.length bytes))

def allocBig (n : Nat) : Except Error Span × World σ :=
  match w.acquire n with
  | (.error e, w') => (.error e, w')
  | (.ok block, w') =>
    let arena := w'.arena.addBig block
    (.ok ⟨block.start, n⟩, (w'.withArena arena).note (.bigBlockAdded arena.id n))

/-- Carves out a request and says which bytes it got. -/
def carve (size : Nat) (claim : Claim) : Except Error Span × World σ :=
  if InvalidRequest size then (.error (.invalidSize size), w)
  else
    let n := Size.roundUp size
    match w.arena.route n with
    | .bump =>
      let taken := claim.taken n w.arena.remaining
      (.ok ⟨w.arena.nextFree, taken⟩, w.withArena (w.arena.bump taken))
    | .chunk bytes => w.allocInChunk bytes n
    | .big => w.allocBig n

def alloc (size : Nat) : Except Failure Nat × World σ := policed (addressOf (w.carve size .exact))

/-- Allocates at least `size` bytes, the rest of the current chunk if they fit in it. -/
def allocMin (size : Nat) : Except Failure Span × World σ := policed (w.carve size .rest)

end World

end ArenaRegistry.Arena
