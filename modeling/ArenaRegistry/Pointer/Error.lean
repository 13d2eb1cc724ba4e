import ArenaRegistry.Pointer.Basic
import ArenaRegistry.Registry.Status
import ArenaRegistry.Settings.Error

/-! What can go wrong with pointers and their registrations. -/

namespace ArenaRegistry

/-- A failed operation on pointers. -/
inductive PointerError
  /-- The text is no pointer. -/
  | format (text : String)
  /-- The tag is neither the expected one nor a descendant of it. -/
  | typeMismatch (expected actual : String)
  | notRegistered (value : String)
  /-- A null pointer where a live one is required. -/
  | nullPointer
  /-- A registration that the existing one does not allow. -/
  | registrationConflict (value existing : String)
  | setting (cause : SettingError)
deriving DecidableEq, Repr

namespace PointerError

/-- The tag that was expected against the one that was found. -/
def mismatch (expected actual : Option Tag) : PointerError :=
  .typeMismatch (Tag.text? expected) (Tag.text? actual)

/-- No record for an address, named with the tag it was looked up under. -/
def unregistered (address : UInt64) (tag : Option Tag) : PointerError :=
  .notRegistered (Pointer.taggedText address tag)

/-- The status that a failed check stands for. -/
def status? : PointerError → Option Status
  | notRegistered _ => some .missing
  | typeMismatch _ _ => some .wrongTag
  | _ => none

/-- Whether the error points to a mistake of the caller. -/
def isBug : PointerError → Bool
  | typeMismatch _ _ | nullPointer => true
  | _ => false

end PointerError

instance : Reportable PointerError where
  category
    | .format _ | .registrationConflict _ _ => .invalidValue
    | .typeMismatch _ _ => .wrongType
    | .notRegistered _ => .notFound
    | .nullPointer => .nullPointer
    | .setting _ => .invalidParam
  message
    | .format text => "Invalid value \"" ++ text ++ "\". Invalid pointer format."
    | .typeMismatch expected actual =>
      "Expected pointer^" ++ expected ++ ", got pointer^" ++ actual ++ "."
    | .notRegistered value =>
      "Invalid value \"" ++ value ++ "\". Pointer validation failed: not registered."
    | .nullPointer => "Pointer is NULL."
    | .registrationConflict value existing =>
      "Pointer " ++ value ++ " conflicts with existing registration " ++ existing ++ "."
    | .setting cause => "Configuration error: " ++ Reportable.message cause

end ArenaRegistry
