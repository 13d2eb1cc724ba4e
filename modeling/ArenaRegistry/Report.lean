/-! Failures as a host records them: a broad category and the text of the failure. Each kind of
error says what its category and its text are, and the report follows from the two. -/

namespace ArenaRegistry

/-- The broad kinds of failure that a host tells apart. -/
inductive Category
  /-- A malformed value, or one that failed validation. -/
  | invalidValue
  /-- A value of the wrong type. -/
  | wrongType
  /-- A required entry that does not exist. -/
  | notFound
  /-- Null where a live pointer is required. -/
  | nullPointer
  /-- Memory could not be had. -/
  | outOfMemory
  /-- A malformed setting or argument. -/
  | invalidParam
  /-- Anything else. -/
  | generic
deriving DecidableEq, Repr

namespace Category

/-- Every category, in the order of their numbers. -/
def all : List Category :=
  [invalidValue, wrongType, notFound, nullPointer, outOfMemory, invalidParam, generic]

def code : Category → String
  | invalidValue => "INVALID_VALUE"
  | wrongType => "WRONG_TYPE"
  | notFound => "NOT_FOUND"
  | nullPointer => "NULL_POINTER"
  | outOfMemory => "OUT_OF_MEMORY"
  | invalidParam => "INVALID_PARAM"
  | generic => "GENERIC"

end Category

/-- A failure as recorded for the host. -/
structure Report where
  category : Category
  message : String
deriving DecidableEq, Repr

/-- The one-line text of a report: the code word, then the message. -/
def Report.text (r : Report) : String := r.category.code ++ ": " ++ r.message

/-- An error type whose values can be reported. -/
class Reportable (ε : Type) where
  /-- The broad kind of an error. -/
  category : ε → Category
  /-- The text of an error. -/
  message : ε → String

def Reportable.report {ε : Type} [Reportable ε] (e : ε) : Report := ⟨category e, message e⟩

end ArenaRegistry
