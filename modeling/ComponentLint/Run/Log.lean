-- What a run notes down while it works.
namespace ComponentLint

/-- How important a note is. -/
inductive LogLevel where
  | debug
  | warning
  | error
  deriving DecidableEq, Repr

namespace LogLevel

def name : LogLevel → String
  | debug => "DEBUG"
  | warning => "WARNING"
  | error => "ERROR"

/-- The place of a level, the least important first. -/
def rank : LogLevel → Nat
  | debug => 0
  | warning => 1
  | error => 2

end LogLevel

/-- A note of one part of the program. -/
structure LogLine where
  level : LogLevel
  logger : String
  message : String
  deriving DecidableEq, Repr

namespace LogLine

/-- The text of a note. -/
def toText (l : LogLine) : String := s!"{l.level.name} {l.logger}: {l.message}"

/-- The notes that are at least as important as a level. -/
def atLeast (level : LogLevel) (lines : List LogLine) : List LogLine :=
  lines.filter fun l => level.rank ≤ l.level.rank

end LogLine

end ComponentLint
