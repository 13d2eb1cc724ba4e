import ArenaRegistry.Arena.Basic
import ArenaRegistry.Arena.Source
import ArenaRegistry.Notice

/-! An arena at work: the arena, the source of its blocks, memory, and the events that others may
watch. Getting and giving back blocks happens here, and so does the policy on failures. A call gives
its answer together with the world it leaves, also where it fails. -/

namespace ArenaRegistry.Arena

/-- Something that happened to an arena and that others may watch. -/
inductive Event
  | started (arena chunkSize : Nat)
  | startRefused (bytes : Nat)
  | requestRefused (arena bytes : Nat)
  | chunkOpened (arena count bytes : Nat)
  | bigBlockAdded (arena bytes : Nat)
  | markPushed (arena depth : Nat)
  | cutBack (arena depth : Nat)
  | closing (arena chunks bigBlocks : Nat)
deriving DecidableEq, Repr

/-- The notice of an event. -/
def Event.notice : Event → Notice
  | started arena chunkSize =>
    ⟨.debug, "memlifo " ++ toString arena ++ ": initialized, chunk size " ++ toString chunkSize⟩
  | startRefused bytes =>
    ⟨.warn, "memlifo init: failed to allocate " ++ toString bytes ++ " byte chunk"⟩
  | requestRefused arena bytes =>
    ⟨.warn, "memlifo " ++ toString arena ++ ": failed to allocate " ++ toString bytes ++ " bytes"⟩
  | chunkOpened arena count bytes =>
    ⟨.trace, "memlifo " ++ toString arena ++ ": new chunk " ++ toString count ++ " of " ++
      toString bytes ++ " bytes"⟩
  | bigBlockAdded arena bytes =>
    ⟨.trace, "memlifo " ++ toString arena ++ ": big block of " ++ toString bytes ++ " bytes"⟩
  | markPushed arena depth =>
    ⟨.trace, "memlifo " ++ toString arena ++ ": push mark " ++ toString depth⟩
  | cutBack arena depth =>
    ⟨.trace, "memlifo " ++ toString arena ++ ": popped to mark " ++ toString depth⟩
  | closing arena chunks bigBlocks =>
    ⟨.debug, "memlifo " ++ toString arena ++ ": closing, releasing " ++ toString chunks ++
      " chunks and " ++ toString bigBlocks ++ " big blocks"⟩

/-- What arenas work on: the state of the block source, memory, and the events so far, first event
first. -/
structure Host (σ : Type) where
  store : σ
  memory : Memory
  events : List Event

namespace Host

variable {σ : Type}

def note (h : Host σ) (e : Event) : Host σ := { h with events := h.events ++ [e] }

/-- Asks the source for a block; a granted one holds what the source has put there. -/
def acquire (h : Host σ) (src : BlockSource σ) (size : Nat) : Option Span × Host σ :=
  match src.request size h.store with
  | (some grant, store) =>
    (some ⟨grant.start, size⟩,
      { h with store, memory := h.memory.paint ⟨grant.start, size⟩ grant.contents })
  | (none, store) => (none, { h with store })

/-- Gives blocks back to the source, in the order of the list. -/
def release (h : Host σ) (src : BlockSource σ) (blocks : List Span) : Host σ :=
  { h with store := blocks.foldl (fun store block => src.release block store) h.store }

end Host

/-- An arena, the source it gets its blocks from, and what both work on. -/
structure World (σ : Type) where
  arena : Arena
  source : BlockSource σ
  host : Host σ

namespace World

variable {σ : Type}

/-- The world with another arena in it. -/
def withArena (w : World σ) (arena : Arena) : World σ := { w with arena }

def note (w : World σ) (e : Event) : World σ := { w with host := w.host.note e }

/-- Asks for a block; a refusal is noted. -/
def acquire (w : World σ) (size : Nat) : Except Error Span × World σ :=
  match w.host.acquire w.source size with
  | (some block, host) => (.ok block, { w with host })
  | (none, host) =>
    (.error (.outOfMemory size), { w with host := host.note (.requestRefused w.arena.id size) })

def release (w : World σ) (blocks : List Span) : World σ :=
  { w with host := w.host.release w.source blocks }

def copy (w : World σ) (source target size : Nat) : World σ :=
  { w with host := { w.host with memory := w.host.memory.copy source target size } }

/-- How a call fails that heeds the wish to panic. -/
def failure (w : World σ) (e : Error) : Failure :=
  if w.arena.flags.panics then .panic (.request w.arena.id e) else .error e

/-- The answer of a call that heeds the wish to panic. -/
def policed {α : Type} : Except Error α × World σ → Except Failure α × World σ
  | (.ok answer, w) => (.ok answer, w)
  | (.error e, w) => (.error (w.failure e), w)

/-- The answer of a call that never panics. -/
def reported {α : Type} : Except Error α × World σ → Except Failure α × World σ
  | (.ok answer, w) => (.ok answer, w)
  | (.error e, w) => (.error (.error e), w)

/-- The answer of a call of which only the address counts. -/
def addressOf : Except Error Span × World σ → Except Error Nat × World σ
  | (.ok span, w) => (.ok span.start, w)
  | (.error e, w) => (.error e, w)

end World

end ArenaRegistry.Arena
