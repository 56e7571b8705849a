import LitmusGraph.Options.Switch
import LitmusGraph.Text.Quoted

/-!
# Usage

What can be wrong with a command line, and the texts that explain its use.

Embedded are the errors of `parse_args` for these arguments, with the usage and the help that
`create_argument_parser` describes. Out of scope: translations, and terminals of another width than
the usual one.
-/

namespace LitmusGraph

/-- What is wrong with a command line. -/
inductive UsageError where
  /-- An abbreviation stands for several names. -/
  | ambiguous (argument : Text) (names : List Text)
  /-- A switch lacks its value. -/
  | missingValue (switch : Switch)
  /-- A flag was given a value. -/
  | unusedValue (switch : Switch) (value : Text)
  /-- A value is no whole number. -/
  | notInteger (switch : Switch) (value : Text)
  /-- The payload file is not given. -/
  | missingInput
  /-- Some arguments are none of the command line's. -/
  | unknownArguments (arguments : List Text)
deriving DecidableEq

namespace UsageError

/-- The error in words. -/
def message : UsageError → Text
  | ambiguous argument names =>
    "ambiguous option: " ++ argument ++ " could match " ++ Text.join ", " names
  | missingValue switch => "argument " ++ switch.title ++ ": expected one argument"
  | unusedValue switch value =>
    "argument " ++ switch.title ++ ": ignored explicit argument " ++ value.quoted
  | notInteger switch value => "argument " ++ switch.title ++ ": invalid int value: " ++ value.quoted
  | missingInput => "the following arguments are required: " ++ Switch.input.title
  | unknownArguments arguments => "unrecognized arguments: " ++ Text.join " " arguments

end UsageError

/-- The short explanation of the command line. -/
def usageText : Text :=
  "usage: render_execution.py [-h] -i INPUT [-x EXECUTION] [-r RELATIONS]\n"
    ++ "                           [--shown] [-o OUTPUT] [--format FORMAT] [--list]\n"
    ++ "                           [--validate-only] [-v] [--debug]\n"

/-- The long explanation of the command line. -/
def helpText : Text :=
  usageText
    ++ "\nRender memory-model candidate executions as Graphviz DOT\n"
    ++ "\noptions:\n"
    ++ "  -h, --help            show this help message and exit\n"
    ++ "  -i INPUT, --input INPUT\n"
    ++ "                        Path to JSON execution file\n"
    ++ "  -x EXECUTION, --execution EXECUTION\n"
    ++ "                        Index of the execution to render\n"
    ++ "  -r RELATIONS, --relations RELATIONS\n"
    ++ "                        Comma-separated relations to draw, in drawing order\n"
    ++ "  --shown               Draw the relations the evaluator marked as shown\n"
    ++ "  -o OUTPUT, --output OUTPUT\n"
    ++ "                        Write DOT to this file instead of stdout\n"
    ++ "  --format FORMAT       Also lay out the graph with Graphviz (e.g. svg, png)\n"
    ++ "  --list                List candidate executions and exit\n"
    ++ "  --validate-only       Only validate the execution file\n"
    ++ "  -v, --verbose         Enable verbose output\n"
    ++ "  --debug               Enable debug output (overrides --verbose)\n"
    ++ "\nExamples:\n"
    ++ "  python render_execution.py -i executions.json\n"
    ++ "  python render_execution.py -i executions.json -x 2 -r rf,co,fr\n"
    ++ "  python render_execution.py -i executions.json --shown -o exec.dot\n"
    ++ "  python render_execution.py -i executions.json --format svg\n"
    ++ "  python render_execution.py -i executions.json --list\n"
    ++ "\nInput file format:\n"
    ++ "  JSON list of executions as emitted by the evaluator, each with\n"
    ++ "  \"events\", \"sets\", \"relations\" and \"show\" fields.\n"
    ++ "        \n"

/-- What is written of a usage error. -/
def UsageError.report (e : UsageError) : Text :=
  usageText ++ "render_execution.py: error: " ++ e.message ++ "\n"

end LitmusGraph
