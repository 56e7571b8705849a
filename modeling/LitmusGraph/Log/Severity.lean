import LitmusGraph.Text.Basic

/-!
# Severities

Each severity has a number, and a record is written when its number reaches a threshold. A record
of at least the severity `info` is written as its message alone; the others carry the name of their
level in front.

Embedded are `LogLevel`, `GraphFormatter.format` (`formatRecord`), and the choice of a level by
`configure_logging` (`Severity.ofFlags`). Out of scope: thresholds other than the four of `LogLevel`,
names of levels that were added, and levels with too many digits.
-/

namespace LitmusGraph

/-- How serious a message is. -/
inductive Severity where
  /-- Internal state, in detail. -/
  | debug
  /-- General progress. -/
  | info
  /-- Unexpected, but no obstacle. -/
  | warning
  /-- A serious problem. -/
  | error
deriving DecidableEq

namespace Severity

/-- All severities, the least serious first. -/
def all : List Severity := [debug, info, warning, error]

/-- The number of a severity. -/
def number : Severity → Nat
  | debug => 10
  | info => 20
  | warning => 30
  | error => 40

/-- The name of a severity. -/
def name : Severity → Text
  | debug => "DEBUG"
  | info => "INFO"
  | warning => "WARNING"
  | error => "ERROR"

/-- A severity passes a threshold that it reaches. -/
def passes (s threshold : Severity) : Bool := threshold.number ≤ s.number

/-- The severity of a name. -/
def ofName? (name : Text) : Option Severity := all.find? (·.name = name)

/-- The threshold that the flags for more output ask for. The flag for debugging output wins, and
without flags only warnings and errors are written. -/
def ofFlags (verbose debugging : Bool) : Severity :=
  if debugging then debug else if verbose then info else warning

end Severity

/-- The name of a level below the severity `info`, by its number. -/
def levelName (level : Int) : Text :=
  if level = 0 then "NOTSET"
  else if level = Severity.debug.number then Severity.debug.name
  else "Level " ++ Text.ofInt level

/-- A record as written, by the number of its level. -/
def formatRecord (level : Int) (message : Text) : Text :=
  if Severity.info.number ≤ level then message else "[" ++ levelName level ++ "] " ++ message

end LitmusGraph
