import ArenaRegistry.Arena.LastAllocation
import ArenaRegistry.Arena.Stack

/-! Calls on an arena as values: what can be called and what each call answers. A run is a list of
calls, each on the world that the one before has left. -/

namespace ArenaRegistry.Arena

/-- A call on an arena. -/
inductive Op
  | alloc (size : Nat)
  | allocMin (size : Nat)
  | pushMark
  | pushFrame (size : Nat)
  | pushFrameMin (size : Nat)
  | popMark (h : Handle)
  | popFrame
  | expandLast (increment : Nat) (inPlace : Bool)
  | shrinkLast (decrement : Nat)
  | resizeLast (size : Nat) (inPlace : Bool)
deriving DecidableEq, Repr

/-- The answer of a call that succeeds. -/
inductive Reply
  | done
  | address (a : Nat)
  | span (s : Span)
  | handle (h : Handle)
deriving DecidableEq, Repr

def replied {σ α : Type} (f : α → Reply) :
    Except Failure α × World σ → Except Failure Reply × World σ
  | (.ok answer, w) => (.ok (f answer), w)
  | (.error e, w) => (.error e, w)

namespace World

variable {σ : Type}

def step (w : World σ) : Op → Except Failure Reply × World σ
  | .alloc size => replied .address (w.alloc size)
  | .allocMin size => replied .span (w.allocMin size)
  | .pushMark => replied .handle w.pushMark
  | .pushFrame size => replied .address (w.pushFrame size)
  | .pushFrameMin size => replied .span (w.pushFrameMin size)
  | .popMark h => replied (fun _ => .done) (reported (w.popMark h))
  | .popFrame => (.ok .done, w.popFrame)
  | .expandLast increment inPlace =>
    replied .address (reported (w.expandLast increment inPlace))
  | .shrinkLast decrement => replied .address (reported (w.shrinkLast decrement))
  | .resizeLast size inPlace => replied .address (reported (w.resizeLast size inPlace))

/-- The world that a run leaves. -/
def run (w : World σ) (ops : List Op) : World σ := ops.foldl (fun w op => (w.step op).2) w

end World

end ArenaRegistry.Arena
