import ArenaRegistry.Arena.Error
import ArenaRegistry.Arena.Memory

/-! Where an arena gets its memory. A block source has a state of its own, grants or refuses each
request as it likes, and takes blocks back. A traced source also writes down what went to and fro. -/

namespace ArenaRegistry.Arena

/-- A granted block: where it starts, and the bytes it holds at first. -/
structure Grant where
  start : Nat
  contents : Nat → UInt8

/-- Something that grants blocks of memory and takes them back. -/
structure BlockSource (σ : Type) where
  /-- Asks for a block of so many bytes. -/
  request : Nat → σ → Option Grant × σ
  /-- Gives a block back. -/
  release : Span → σ → σ

/-- What went between an arena and its source. -/
inductive Traffic
  | granted (block : Span)
  /-- A request for so many bytes was refused. -/
  | refused (size : Nat)
  | released (block : Span)
deriving DecidableEq, Repr

namespace Traffic

/-- The short text of one event: a sign for its kind and the size. -/
def text : Traffic → String
  | granted block => "+" ++ toString block.size
  | refused size => "x" ++ toString size
  | released block => "-" ++ toString block.size

def isGranted : Traffic → Bool
  | granted _ => true
  | _ => false

def isReleased : Traffic → Bool
  | released _ => true
  | _ => false

/-- The number of blocks that were granted and not given back. -/
def live (traffic : List Traffic) : Nat := traffic.countP isGranted - traffic.countP isReleased

end Traffic

/-- The state of a source, with the traffic so far, first event first. -/
structure Traced (σ : Type) where
  inner : σ
  traffic : List Traffic

namespace BlockSource

variable {σ : Type}

/-- The source that also writes its traffic down. -/
def traced (src : BlockSource σ) : BlockSource (Traced σ) where
  request size s :=
    match src.request size s.inner with
    | (some grant, inner) => (some grant, ⟨inner, s.traffic ++ [.granted ⟨grant.start, size⟩]⟩)
    | (none, inner) => (none, ⟨inner, s.traffic ++ [.refused size]⟩)
  release block s := ⟨src.release block s.inner, s.traffic ++ [.released block]⟩

/-- The source beside a traced one, its own traffic not written down. -/
def untraced (src : BlockSource σ) : BlockSource (Traced σ) where
  request size s :=
    let (grant, inner) := src.request size s.inner
    (grant, { s with inner })
  release block s := { s with inner := src.release block s.inner }

/-- The source made of two functions. Without a function that requests, it is the given one; such a
function must not come without one that releases. -/
def ofFunctions (fallback : BlockSource σ) (request : Option (Nat → σ → Option Grant × σ))
    (release : Option (Span → σ → σ)) : Except Error (BlockSource σ) :=
  match request, release with
  | none, _ => .ok fallback
  | some _, none =>
    .error (.invalidParam "allocate function supplied without a free function")
  | some request, some release => .ok ⟨request, release⟩

end BlockSource

end ArenaRegistry.Arena
