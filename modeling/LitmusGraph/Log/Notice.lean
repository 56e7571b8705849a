import LitmusGraph.Log.Severity
import LitmusGraph.Text.Quoted

/-!
# Notices

A notice is one thing worth telling about a run. Its severity and its message are functions of what
it tells, so a log is a list of notices, and what is written of a log at a threshold is a filter
followed by a rendering. Nothing else ever depends on the threshold.

The notices are the calls of `GraphLogger.debug`, `info`, `warning`, `error`, `executions_loaded`,
`execution_selected`, `render_summary` and `export_result` in the functions of the program, with their
texts. A `Stage` is one of the handlers of `main`, with the text that it logs. Out of scope: arguments
to be formatted into a message, and numbers with too many digits, since the numbers told are counts and
indices of lists in memory.
-/

namespace LitmusGraph

/-- The part of a run that failed. -/
inductive Stage where
  /-- Reading the executions. -/
  | reading
  /-- Selecting an execution, or another input that makes no sense. -/
  | selection
  /-- Writing the drawing. -/
  | writing
  /-- The user interrupted the run. -/
  | interrupted
  /-- Anything else. -/
  | unexpected
deriving DecidableEq

/-- One thing worth telling about a run. -/
inductive Notice where
  /-- A message with a severity of its own. -/
  | plain (severity : Severity) (message : Text)
  /-- A file is about to be read. -/
  | reading (path : Text)
  /-- Executions were read, from a source if one is given. -/
  | loaded (count : Int) (source : Option Text)
  /-- A file is about to be validated. -/
  | validating (path : Text)
  /-- A file was found valid. -/
  | validated (count : Nat)
  /-- A file was found invalid. -/
  | invalid (reason : Text)
  /-- The file was all there was to validate. -/
  | validationDone
  /-- A viewer was made for a number of executions. -/
  | viewing (count : Nat)
  /-- An execution was selected among a number of them. -/
  | selected (index count : Int)
  /-- The draw list was set. -/
  | drawSet (names : List Text)
  /-- An execution was drawn. -/
  | rendered (index events threads lines : Int)
  /-- The drawing was written to a file. -/
  | written (path : Text)
  /-- No layout engine is installed. -/
  | engineMissing
  /-- The folder for images was created. -/
  | folderCreated (folder : Text)
  /-- The folder for images could not be created. -/
  | folderFailed (folder reason : Text)
  /-- An image was made, or not. -/
  | exported (success : Bool) (message : Text)
  /-- The run failed. -/
  | failed (stage : Stage) (reason : Text)
deriving DecidableEq

namespace Stage

/-- What is said of a failure. -/
def describe (stage : Stage) (reason : Text) : Text :=
  match stage with
  | reading => "Execution file error: " ++ reason
  | selection => "Selection error: " ++ reason
  | writing => "Output file error: " ++ reason
  | interrupted => "Rendering interrupted by user"
  | unexpected => "Unexpected error: " ++ reason

end Stage

namespace Notice

/-- How serious a notice is. -/
def severity : Notice → Severity
  | plain severity _ => severity
  | reading _ | validating _ | validated _ | viewing _ | selected _ _ | drawSet _
  | rendered _ _ _ _ => .debug
  | loaded _ _ | validationDone | written _ | folderCreated _ | exported true _ => .info
  | engineMissing | exported false _ => .warning
  | invalid _ | folderFailed _ _ | failed _ _ => .error

/-- The message of a notice. -/
def message : Notice → Text
  | plain _ message => message
  | reading path => "Reading execution file: " ++ path
  | loaded count none => "Loaded " ++ Text.ofInt count ++ " candidate execution(s)"
  | loaded count (some source) =>
    "Loaded " ++ Text.ofInt count ++ " candidate execution(s)"
      ++ (if source.isEmpty then ([] : Text) else " from " ++ source)
  | validating path => "Validating execution file: " ++ path
  | validated count =>
    "Execution validation successful: " ++ Text.ofNat count ++ " executions"
  | invalid reason => "❌ Execution validation failed: " ++ reason
  | validationDone => "✅ Execution file validation successful. Exiting."
  | viewing count => "Renderer created with " ++ Text.ofNat count ++ " candidate execution(s)"
  | selected index count =>
    "Selected execution " ++ Text.ofInt (index + 1) ++ "/" ++ Text.ofInt count
  | drawSet names => "Draw list set to " ++ Text.quotedList names
  | rendered index events threads lines =>
    "Rendered execution " ++ Text.ofInt index ++ ": " ++ Text.ofInt events ++ " events on "
      ++ Text.ofInt threads ++ " thread(s), " ++ Text.ofInt lines ++ " DOT lines"
  | written path => "📝 DOT written to " ++ path
  | engineMissing =>
    "Graphviz library not installed. Skipping graph export. "
      ++ "To enable, install graphviz: pip install graphviz"
  | folderCreated folder => "Created directory for execution graphs: " ++ folder
  | folderFailed folder reason =>
    "Could not create directory " ++ folder ++ ": " ++ reason
      ++ ". Saving to current directory instead."
  | exported true message => "✅ " ++ (if message.isEmpty then ("Graph exported" : Text) else message)
  | exported false message =>
    "⚠️  " ++ (if message.isEmpty then ("Graph export failed" : Text) else message)
  | failed stage reason => stage.describe reason

/-- The notice as written, with its line feed. -/
def line (n : Notice) : Text := formatRecord n.severity.number n.message ++ "\n"

end Notice

/-- The notices of a run, in order. -/
abbrev Log := List Notice

namespace Log

/-- The notices that pass a threshold. -/
def visible (threshold : Severity) (log : Log) : Log := log.filter (·.severity.passes threshold)

/-- What is written of a log at a threshold. -/
def render (threshold : Severity) (log : Log) : Text := (visible threshold log).flatMap Notice.line

@[simp] theorem render_nil (threshold : Severity) : render threshold [] = [] := rfl

theorem render_append (threshold : Severity) (a b : Log) :
    render threshold (a ++ b) = render threshold a ++ render threshold b := by
  simp [render, visible]

end Log

end LitmusGraph
