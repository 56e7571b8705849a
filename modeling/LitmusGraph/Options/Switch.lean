import LitmusGraph.Table

/-!
# Switches

The switches of the command line, with the names they go by. Some take a value, the others are
flags.

These are the arguments that `create_argument_parser` declares, and the one for help that every parser
has.
-/

namespace LitmusGraph

/-- A switch of the command line. -/
inductive Switch where
  /-- Shows the help. -/
  | help
  /-- The payload file. -/
  | input
  /-- The index of the execution. -/
  | execution
  /-- The relations to draw. -/
  | relations
  /-- Draws the relations that the evaluator wants shown. -/
  | shown
  /-- The file for the drawing. -/
  | output
  /-- The format of an image. -/
  | format
  /-- Lists the executions. -/
  | list
  /-- Only validates the file. -/
  | validateOnly
  /-- Asks for more output. -/
  | verbose
  /-- Asks for debugging output. -/
  | debug
deriving DecidableEq

namespace Switch

/-- All switches, in the order in which the help lists them. -/
def all : List Switch :=
  [help, input, execution, relations, shown, output, format, list, validateOnly, verbose, debug]

/-- The short name, if there is one, and the long name. -/
def names : Switch → List Text
  | help => ["-h", "--help"]
  | input => ["-i", "--input"]
  | execution => ["-x", "--execution"]
  | relations => ["-r", "--relations"]
  | shown => ["--shown"]
  | output => ["-o", "--output"]
  | format => ["--format"]
  | list => ["--list"]
  | validateOnly => ["--validate-only"]
  | verbose => ["-v", "--verbose"]
  | debug => ["--debug"]

/-- Every name with its switch, in order. -/
def table : Table Switch := all.flatMap fun s => s.names.map (·, s)

/-- The switch of a name written in full. -/
def ofName? (name : Text) : Option Switch := table.get? name

/-- Whether a value belongs to the switch. -/
def takesValue : Switch → Bool
  | input | execution | relations | output | format => true
  | help | shown | list | validateOnly | verbose | debug => false

/-- The switch as messages name it. -/
def title (s : Switch) : Text := Text.join "/" s.names

end Switch

end LitmusGraph
