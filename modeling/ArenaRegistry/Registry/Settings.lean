import ArenaRegistry.Settings.Environment
import ArenaRegistry.Text.Numeral
import ArenaRegistry.Text.Spelling

/-! The settings of a pointer registry: how far a walk up the supertags may go, what becomes of a
registration that the existing one does not allow, and whether a cast needs a registration. -/

namespace ArenaRegistry.Registry

/-- What becomes of a registration whose tag or mode the existing one does not allow. -/
inductive Policy
  /-- The new registration replaces the old one. -/
  | overwrite
  /-- The old registration stays and the new one fails. -/
  | reject
deriving DecidableEq, Repr

namespace Policy

def word : Policy → String
  | overwrite => "overwrite"
  | reject => "reject"

/-- Reads the word of a policy, in letters of any case. -/
def ofWord? (s : String) : Option Policy :=
  if Text.spells "overwrite" s then some overwrite
  else if Text.spells "reject" s then some reject
  else none

/-- Reads the word of a policy; any other text is a refused setting. -/
def parse (s : String) : Except SettingError Policy :=
  match ofWord? s with
  | some p => .ok p
  | none => .error (.invalidSetting ("unknown re-registration policy " ++ Text.quoted s))

end Policy

structure Settings where
  depthLimit : Nat
  policy : Policy
  castRequiresRegistration : Bool
deriving DecidableEq, Repr

namespace Settings

/-- The largest depth limit that is accepted. -/
def maxDepth : Nat := 1024

def standard : Settings := ⟨10, .overwrite, false⟩

/-- Accepts settings whose depth limit is within its bounds. -/
def validate (s : Settings) : Except SettingError Unit :=
  if s.depthLimit = 0 ∨ maxDepth < s.depthLimit then
    .error (.invalidSetting ("subtag_depth_limit must be between 1 and " ++ toString maxDepth ++
      ", got " ++ toString s.depthLimit))
  else .ok ()

/-- The settings that the environment asks for, the standard ones where it is silent. -/
def ofEnvironment (env : Environment) : Except SettingError Settings := do
  let depthLimit ← env.readD "XTH_PTR_SUBTAG_DEPTH" Text.word? standard.depthLimit
  let policy ← env.readD "XTH_PTR_REREGISTER" Policy.ofWord? standard.policy
  let castRequires ← env.readD "XTH_PTR_CAST_REQUIRES_REGISTRATION" Text.flag?
    standard.castRequiresRegistration
  let settings : Settings := ⟨depthLimit, policy, castRequires⟩
  settings.validate
  return settings

end Settings

end ArenaRegistry.Registry
