/-
  EsFeatures.Console

  What a run writes to its two output streams, and the form of its log lines.
-/
import EsFeatures.Scalar

namespace EsFeatures

/-- How grave a log line is. -/
inductive LogLevel where
  | debug | info | warn | error
deriving Repr, DecidableEq

/-- The coloured tag in front of a log line. -/
def LogLevel.tag : LogLevel → String
  | .debug => "\x1b[1m[DEBUG]\x1b[0m"
  | .info => "\x1b[1;34m[INFO]\x1b[0m"
  | .warn => "\x1b[1;33m[WARNING]\x1b[0m"
  | .error => "\x1b[1;31m[ERROR]\x1b[0m"

/-- How a run is set up from outside. -/
structure Environment where
  /-- Reports go without colours. -/
  plain : Bool := false
  /-- Debugging lines are written. -/
  debug : Bool := false
deriving Repr, DecidableEq, Inhabited

/-- A log line: the tag and the arguments, with blanks between them. -/
def logLine (level : LogLevel) (arguments : List Scalar) : String :=
  " ".intercalate (level.tag :: arguments.map Scalar.display) ++ "\n"

/-- The log line of a call; a debugging line only where they are written. -/
def logged (env : Environment) (level : LogLevel) (arguments : List Scalar) : String :=
  if level = .debug ∧ ¬env.debug then "" else logLine level arguments

/-- What is written to the two streams. -/
structure Console where
  out : String := ""
  err : String := ""
deriving Repr, DecidableEq, Inhabited

namespace Console

/-- A text written to the output stream. -/
def ofText (text : String) : Console :=
  { out := text }

/-- A log line with one argument, written to the error stream. -/
def ofLog (env : Environment) (level : LogLevel) (text : String) : Console :=
  { err := logged env level [.text text] }

/-- What is written in several steps, one after the other. -/
def join (steps : List Console) : Console :=
  { out := String.join (steps.map out), err := String.join (steps.map err) }

end Console

end EsFeatures
