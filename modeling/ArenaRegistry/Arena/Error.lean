import ArenaRegistry.Settings.Error

/-! What can go wrong with an arena. Most failures are errors that the caller gets back; an arena that
was asked to panics instead where an allocation fails. -/

namespace ArenaRegistry.Arena

/-- A failed operation on an arena. -/
inductive Error
  /-- The block source had no memory of this size. -/
  | outOfMemory (requested : Nat)
  /-- A size that may not be requested. -/
  | invalidSize (size : Nat)
  /-- A bad argument to the construction of an arena. -/
  | invalidParam (reason : String)
  /-- The last allocation would have to move to grow by this much. -/
  | cannotExpandInPlace (increment : Nat)
  | noLastAllocation
  /-- The handle is of no mark on the stack. -/
  | invalidMark (id : Nat)
  | setting (cause : SettingError)
deriving DecidableEq, Repr

namespace Error

/-- Whether the caller can go on after the error. -/
def isRecoverable : Error → Bool
  | outOfMemory _ | cannotExpandInPlace _ => true
  | _ => false

/-- Whether the error points to a mistake of the caller. -/
def isBug : Error → Bool
  | invalidMark _ | noLastAllocation => true
  | _ => false

def successCode : Nat := 0

/-- The status code of an error: 1 for lack of memory, 2 for bad arguments and settings, 3 for the
others. -/
def statusCode : Error → Nat
  | outOfMemory _ => 1
  | invalidParam _ | setting _ => 2
  | _ => 3

end Error

instance : Reportable Error where
  category
    | .outOfMemory _ => .outOfMemory
    | .invalidSize _ | .invalidMark _ => .invalidValue
    | .invalidParam _ | .setting _ => .invalidParam
    | .cannotExpandInPlace _ | .noLastAllocation => .generic
  message
    | .outOfMemory requested =>
      "Attempt to allocate " ++ toString requested ++ " bytes for memlifo failed"
    | .invalidSize size => "Invalid allocation size: " ++ toString size ++ " bytes"
    | .invalidParam reason => "Invalid parameter: " ++ reason
    | .cannotExpandInPlace increment =>
      "Cannot expand last allocation in place by " ++ toString increment ++ " bytes"
    | .noLastAllocation => "No allocation since the last mark"
    | .invalidMark id => "Mark " ++ toString id ++ " is not on this arena's mark stack"
    | .setting cause => "Configuration error: " ++ Reportable.message cause

/-- Why an arena that was asked to has panicked. -/
inductive Panic
  /-- There was no first chunk of this size. -/
  | noFirstChunk (bytes : Nat)
  /-- A request to the arena has failed. -/
  | request (arena : Nat) (cause : Error)
deriving DecidableEq, Repr

def Panic.message : Panic → String
  | noFirstChunk bytes => "Could not initialize memlifo: " ++ toString bytes ++ " byte chunk"
  | request arena cause => "memlifo " ++ toString arena ++ ": " ++ Reportable.message cause

/-- How a call fails: with an error that the caller gets, or with a panic. -/
inductive Failure
  | error (e : Error)
  | panic (p : Panic)
deriving DecidableEq, Repr

end ArenaRegistry.Arena
