import ArenaRegistry.Report
import ArenaRegistry.Text.Quoted

/-! What can be wrong with a setting: a variable whose value cannot be read, or a value out of its
bounds. -/

namespace ArenaRegistry

inductive SettingError
  /-- The variable is set to a value that does not parse. -/
  | invalidVariable (name value : String)
  /-- A value that is not allowed, and why. -/
  | invalidSetting (reason : String)
deriving DecidableEq, Repr

instance : Reportable SettingError where
  category _ := .invalidParam
  message
    | .invalidVariable name value => "Invalid value for " ++ name ++ ": " ++ Text.quoted value
    | .invalidSetting reason => "Invalid setting: " ++ reason

end ArenaRegistry
