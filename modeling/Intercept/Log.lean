/-!
# Log lines

Operations that go on after a problem report it as a log line of level `ERROR` or `WARN`.
The pure operations of this library return their log lines as data, in the order they arise,
beside their result.
-/

namespace Intercept

inductive Level where
  | error
  | warn
  deriving DecidableEq, Repr

/-- One reported problem. -/
structure LogLine where
  level : Level
  text : String
  deriving DecidableEq, Repr

namespace LogLine

def error (text : String) : LogLine := ⟨.error, text⟩

def warn (text : String) : LogLine := ⟨.warn, text⟩

/-- The line as written: the level in capitals, a space, the text. -/
def render (l : LogLine) : String :=
  (match l.level with
    | .error => "ERROR "
    | .warn => "WARN ") ++ l.text

end LogLine

/-- The log lines an operation wrote, oldest first. -/
abbrev Log := List LogLine

end Intercept
