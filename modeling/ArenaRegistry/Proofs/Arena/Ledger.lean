import ArenaRegistry.Arena.Lifetime
import ArenaRegistry.Arena.Op

/-! The books of a caller. From the answers to its calls alone it knows which bytes are its own and
under which mark it got them, and it knows what it has left in each. A session is an arena at work
together with the books on it; the caller may call, or write to what is its own. -/

namespace ArenaRegistry.Arena

/-- Bytes that a caller owns. The contents of each byte are what was last written there, or what the
byte held when the caller got it. -/
structure Allocation where
  span : Span
  contents : Nat → UInt8

namespace Allocation

/-- Bytes just handed out, as they are found in memory. -/
def found (m : Memory) (span : Span) : Allocation := ⟨span, fun i => m (span.start + i)⟩

/-- The allocation at another place or of another size: it keeps as much of its contents as there is
room for, and bytes that are new are as they are found. -/
def resized (r : Allocation) (m : Memory) (span : Span) : Allocation where
  span := span
  contents i := if i < min r.span.size span.size then r.contents i else m (span.start + i)

/-- The allocation with bytes written to it from a place on. -/
def write (r : Allocation) (place : Nat) (bytes : List UInt8) : Allocation where
  span := r.span
  contents i :=
    if place ≤ i ∧ i < place + bytes.length then bytes.getD (i - place) 0 else r.contents i

end Allocation

/-- What a caller knows of one mark: the bytes that the mark itself takes, and the allocations made
under it, the newest first. -/
structure Level where
  footprint : Span
  live : List Allocation

/-- The levels of all marks, the current one first. -/
abbrev Ledger := List Level

namespace Ledger

/-- The live allocations, the newest first. -/
def live (ledger : Ledger) : List Allocation := ledger.flatMap Level.live

/-- One more allocation under the current mark. -/
def add (r : Allocation) : Ledger → Ledger
  | [] => []
  | level :: below => { level with live := r :: level.live } :: below

/-- The last allocation under the current mark is now somewhere else or of another size. Where there
is none, it is one more allocation. -/
def resize (m : Memory) (span : Span) : Ledger → Ledger
  | [] => []
  | ⟨footprint, []⟩ :: below => ⟨footprint, [.found m span]⟩ :: below
  | ⟨footprint, r :: older⟩ :: below => ⟨footprint, r.resized m span :: older⟩ :: below

/-- The lowest levels, so many of them. -/
def keep (count : Nat) (ledger : Ledger) : Ledger := ledger.drop (ledger.length - count)

/-- The allocation of a level, both given by their places. -/
def find? (ledger : Ledger) (level index : Nat) : Option Allocation :=
  ledger[level]?.bind fun l => l.live[index]?

/-- The ledger with one allocation changed. -/
def change (ledger : Ledger) (level index : Nat) (f : Allocation → Allocation) : Ledger :=
  ledger.modify level fun l => { l with live := l.live.modify index f }

end Ledger

/-- The bytes that a mark takes which is pushed between two arenas: the next ones of the current
chunk, or else the first ones of the next chunk. -/
def reserved (before after : Arena) : Span :=
  if footprint ≤ before.remaining then ⟨before.nextFree, footprint⟩
  else ⟨(after.chunkAt (before.chunks.length + 1)).start, footprint⟩

namespace World

variable {σ : Type}

/-- What a call that succeeds between two worlds does to a ledger. -/
def book (before after : World σ) (ledger : Ledger) : Op → Reply → Ledger
  | .alloc size, .address p => ledger.add (.found after.host.memory ⟨p, Size.roundUp size⟩)
  | .allocMin _, .span s => ledger.add (.found after.host.memory s)
  | .pushMark, _ => ⟨reserved before.arena after.arena, []⟩ :: ledger
  | .pushFrame size, .address p =>
    ⟨reserved before.arena after.arena, [.found after.host.memory ⟨p, Size.roundUp size⟩]⟩ :: ledger
  | .pushFrameMin _, .span s =>
    ⟨reserved before.arena after.arena, [.found after.host.memory s]⟩ :: ledger
  | .popMark h, _ => if h.isBottom then ledger else ledger.keep h.depth
  | .popFrame, _ => if ledger.length ≤ 1 then ledger else ledger.tail
  | .expandLast _ _, .address p | .shrinkLast _, .address p | .resizeLast _ _, .address p =>
    ledger.resize after.host.memory ⟨p, after.arena.lastSize?.getD 0⟩
  | _, _ => ledger

/-- The world after bytes were written to an allocation from a place on. -/
def write (w : World σ) (r : Allocation) (place : Nat) (bytes : List UInt8) : World σ :=
  { w with
    host := { w.host with
      memory := w.host.memory.paint ⟨r.span.start + place, bytes.length⟩ fun i => bytes.getD i 0 } }

end World

/-- An arena at work, and the books on it. -/
structure Session (σ : Type) where
  world : World σ
  ledger : Ledger

/-- What a caller may do. -/
inductive Action
  | call (op : Op)
  /-- Writes bytes to an allocation, which is given by its place in the ledger, from a place in it
  on. -/
  | write (level index place : Nat) (bytes : List UInt8)
deriving DecidableEq, Repr

namespace Session

variable {σ : Type}

/-- The session on an arena that has just been started. -/
def begin (w : World σ) : Session σ := ⟨w, [⟨⟨(w.arena.chunkAt 1).start, footprint⟩, []⟩]⟩

/-- A call, which is booked unless it fails. -/
def call (s : Session σ) (op : Op) : Session σ :=
  match s.world.step op with
  | (.ok reply, w) => ⟨w, s.world.book w s.ledger op reply⟩
  | (.error _, w) => ⟨w, s.ledger⟩

/-- A write, which is carried out only if it stays inside a live allocation. -/
def write (s : Session σ) (level index place : Nat) (bytes : List UInt8) : Session σ :=
  match s.ledger.find? level index with
  | none => s
  | some r =>
    if place + bytes.length ≤ r.span.size then
      ⟨s.world.write r place bytes, s.ledger.change level index (·.write place bytes)⟩
    else s

/-- One action. -/
def step (s : Session σ) : Action → Session σ
  | .call op => s.call op
  | .write level index place bytes => s.write level index place bytes

/-- The session that a run of actions leaves. -/
def run (s : Session σ) (actions : List Action) : Session σ := actions.foldl step s

end Session

end ArenaRegistry.Arena
