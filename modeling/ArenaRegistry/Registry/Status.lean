/-! What a check of an address against the registered pointers comes to. -/

namespace ArenaRegistry

/-- The outcome of checking an address against an expected tag. -/
inductive Status
  | missing
  /-- The address is registered under another kind of tag. -/
  | wrongTag
  /-- The address is registered under the expected tag. -/
  | ok
  /-- The address is registered under a descendant of the expected tag. -/
  | derived
deriving DecidableEq, Repr

namespace Status

def word : Status → String
  | missing => "missing"
  | wrongTag => "wrong_tag"
  | ok => "ok"
  | derived => "derived"

/-- Whether a pointer of this status may be used. -/
def usable : Status → Bool
  | ok | derived => true
  | missing | wrongTag => false

end Status

end ArenaRegistry
