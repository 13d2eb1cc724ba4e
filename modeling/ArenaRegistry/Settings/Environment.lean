import ArenaRegistry.Settings.Error
import ArenaRegistry.Text.Blank

/-! Environment variables as a source of settings. A variable holds bytes; one whose bytes are not
UTF-8 counts as unset, and one that is set has to parse once the blanks at its ends are gone. -/

namespace ArenaRegistry

/-- The bytes of every variable that is set. -/
structure Environment where
  bytes? : String → Option ByteArray

namespace Environment

/-- The environment with the listed entries, the first of two equal names counting. -/
def ofList (entries : List (String × ByteArray)) : Environment where
  bytes? name := entries.lookup name

/-- The text of a variable that is set to one. -/
def text? (env : Environment) (name : String) : Option String :=
  (env.bytes? name).bind String.fromUTF8?

/-- Reads a variable, if it is set; a value that does not parse is an error and shown in full. -/
def read {α : Type} (env : Environment) (name : String) (parse : String → Option α) :
    Except SettingError (Option α) :=
  match env.text? name with
  | none => .ok none
  | some value =>
    match parse (Text.trim value) with
    | some a => .ok (some a)
    | none => .error (.invalidVariable name value)

/-- Reads a variable, with a default for one that is not set. -/
def readD {α : Type} (env : Environment) (name : String) (parse : String → Option α)
    (default : α) : Except SettingError α :=
  (env.read name parse).map (·.getD default)

end Environment

end ArenaRegistry
