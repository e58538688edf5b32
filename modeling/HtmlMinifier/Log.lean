/-
# Log entries

The library reports what it does as data: a level, the part of the program that speaks, and a line
of text. Results never depend on the log, so the functions that report stand beside the functions
that answer instead of inside them.
-/

namespace HtmlMinifier.Log

/-- How much a reader has to ask for before an entry is shown. -/
inductive Level where
  | warn
  | debug
  | trace
  deriving DecidableEq, Repr

/-- The rank of a level: an entry is shown when its rank is at most the rank that was asked for. -/
def Level.rank : Level → Nat
  | .warn => 0
  | .debug => 1
  | .trace => 2

/-- The level as it is printed, five characters wide. -/
def Level.label : Level → String
  | .warn => "WARN "
  | .debug => "DEBUG"
  | .trace => "TRACE"

/-- One line of the log. -/
structure Entry where
  level : Level
  target : String
  text : String
  deriving DecidableEq, Repr

/-- The entry as a line of the error stream. -/
def Entry.line (entry : Entry) : String :=
  "[" ++ entry.level.label ++ " " ++ entry.target ++ "] " ++ entry.text ++ "\n"

/-- The lines of the entries that are shown at a level. -/
def lines (shown : Level) (entries : List Entry) : String :=
  String.join ((entries.filter fun entry => entry.level.rank ≤ shown.rank).map Entry.line)

end HtmlMinifier.Log
