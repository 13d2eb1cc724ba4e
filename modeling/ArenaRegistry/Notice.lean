/-! Notices: lines that an operation leaves for whoever watches, each with a level. -/

namespace ArenaRegistry

/-- How much a notice matters. -/
inductive Level
  | trace
  | debug
  | warn
deriving DecidableEq, Repr

def Level.word : Level → String
  | trace => "TRACE"
  | debug => "DEBUG"
  | warn => "WARN"

/-- One line for whoever watches. -/
structure Notice where
  level : Level
  message : String
deriving DecidableEq, Repr

/-- The line of a notice: the word of its level, then its message. -/
def Notice.line (n : Notice) : String := n.level.word ++ " " ++ n.message

end ArenaRegistry
