import ArenaRegistry.Arena.Lifetime
import ArenaRegistry.Arena.Op

/-! Several arenas over one host. Each gets the next number when it starts, and keeps its seat in the
pool until it is closed. -/

namespace ArenaRegistry.Arena

/-- An arena in a pool, and the source it gets its blocks from. -/
structure Seat (σ : Type) where
  arena : Arena
  source : BlockSource σ

/-- Arenas over one host, a closed one leaving its seat empty. -/
structure Pool (σ : Type) where
  host : Host σ
  seats : List (Option (Seat σ))
  nextId : Nat

namespace Pool

variable {σ : Type}

def empty (host : Host σ) : Pool σ := ⟨host, [], 1⟩

/-- Starts an arena on a source and returns the number of its seat. -/
def create (p : Pool σ) (src : BlockSource σ) (settings : Settings) :
    Except Failure Nat × Pool σ :=
  match start src settings p.nextId p.host with
  | (.error e, host) => (.error e, { p with host })
  | (.ok w, host) =>
    (.ok p.seats.length, ⟨host, p.seats ++ [some ⟨w.arena, src⟩], p.nextId + 1⟩)

/-- Starts an arena on a source that may be refused itself. -/
def createOn (p : Pool σ) (src : Except Error (BlockSource σ)) (settings : Settings) :
    Except Failure Nat × Pool σ :=
  match src with
  | .error e => (.error (.error e), p)
  | .ok src => p.create src settings

/-- The arena in a seat, at work. -/
def world? (p : Pool σ) (i : Nat) : Option (World σ) :=
  (p.seats[i]?.join).map fun seat => ⟨seat.arena, seat.source, p.host⟩

/-- The pool after the arena in a seat has worked. -/
def put (p : Pool σ) (i : Nat) (w : World σ) : Pool σ :=
  { p with host := w.host, seats := p.seats.set i (some ⟨w.arena, w.source⟩) }

/-- Carries out a call on the arena in a seat, if it is open. -/
def step (p : Pool σ) (i : Nat) (op : Op) : Option (Except Failure Reply) × Pool σ :=
  match p.world? i with
  | none => (none, p)
  | some w =>
    let (reply, w') := w.step op
    (some reply, p.put i w')

def close (p : Pool σ) (i : Nat) : Pool σ :=
  match p.world? i with
  | none => p
  | some w => { p with host := w.close, seats := p.seats.set i none }

/-- Closes every open arena, in the order of their seats. -/
def closeAll (p : Pool σ) : Pool σ := (List.range p.seats.length).foldl close p

/-- Writes bytes that count up from `seed` to a span of memory. -/
def fill (p : Pool σ) (span : Span) (seed : Nat) : Pool σ :=
  { p with host := { p.host with memory := p.host.memory.fill span seed } }

/-- Changes the state that the block sources work on. -/
def mapStore (p : Pool σ) (f : σ → σ) : Pool σ :=
  { p with host := { p.host with store := f p.host.store } }

end Pool

end ArenaRegistry.Arena
