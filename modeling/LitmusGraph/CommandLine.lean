import LitmusGraph.Layout.Export
import LitmusGraph.Options.Parser
import LitmusGraph.Payload.File
import LitmusGraph.Viewer

/-!
# The command line

A run reads the executions of a payload file, selects one, and lists them or draws the selected one:
to a file or to the standard output, and if asked for as an image. Or it does no more than validate
the file.

* `CommandLine.run` is what a run does to the world, and how it may fail.
* `Failure.stage` says which part of a run a failure counts for, and that alone decides on the exit
  code.
* `CommandLine.outcome` is a whole call of the program: its arguments in, its exit code, outputs and
  files out. The threshold of the log is looked at nowhere but there.

Embedded are `main` (`CommandLine.run`, and `CommandLine.complete` for its handlers), `write_output`
(`CommandLine.deliver`), `print_execution_list` and `summarize_executions` (`CommandLine.printList`),
and the exit of the program with the code that `main` returns.

Out of scope: the trace that is printed behind an unexpected error, an output that is closed or full, an
interruption anywhere but in the layout engine, and encodings of the outputs other than UTF-8.
-/

namespace LitmusGraph

/-- The version of the program. -/
def version : Text := "1.0.0"

/-- Why a run fails. -/
inductive Failure where
  /-- The payload file gives no executions. -/
  | unreadable (e : Payload.ReadError)
  /-- There is no such execution. -/
  | refused (r : Viewer.Refusal)
  /-- The index of the execution has no value. -/
  | noIndex
  /-- The text to write holds lone surrogates. -/
  | notEncodable (e : Utf8.EncodeError)
  /-- The file for the drawing has no path. -/
  | noPath
  /-- The payload file has no name to name an image after. -/
  | noStem
  /-- The file for the drawing cannot be written. -/
  | notWritable (e : FileError)
  /-- Making the image failed. -/
  | notExported (e : ExportError)

namespace Stage

/-- The exit code of a run that fails in a stage. -/
def exitCode : Stage → Nat
  | reading => 1
  | selection => 2
  | writing => 3
  | interrupted => 4
  | unexpected => 5

end Stage

namespace Failure

/-- The part of a run that a failure counts for. A path that the system cannot be asked about, a number
that cannot be written and a text that cannot be encoded count as inputs that make no sense. -/
def stage : Failure → Stage
  | unreadable e => e.stage
  | refused _ | notEncodable _ => .selection
  | noIndex | noPath | noStem => .unexpected
  | notWritable e | notExported (.folder e) =>
    match e.fault with
    | .notEncodable _ | .embeddedNul => .selection
    | .tooManyMissing => .unexpected
    | _ => .writing
  | notExported (.engine (.system _)) => .writing
  | notExported (.engine (.invalid _)) => .selection
  | notExported (.engine .interrupted) => .interrupted
  | notExported (.engine (.exitStatus _)) | notExported (.engine .notExecutable)
  | notExported (.engine (.other _)) => .unexpected

/-- The reason of a failure, as messages give it. -/
def reason : Failure → Text
  | unreadable e => e.message
  | refused r => r.message
  | noIndex => "'<=' not supported between instances of 'int' and 'list'"
  | notEncodable e => e.message
  | noPath => "expected str, bytes or os.PathLike object, not list"
  | noStem => "'list' object has no attribute 'stem'"
  | notWritable e => e.message
  | notExported e => e.message

end Failure

namespace CommandLine

/-- The levels of nesting that are left to the decoder in a run that lists or draws. Of the thousand
calls that may be open at once, eight are open when it meets the first value: the program, `main`,
`read_executions`, and five of the decoder itself, `json.load` down to its scanner. -/
def levels : Nat := 1000 - 8

/-! ## The parts of a run -/

/-- Tells notices and goes on with a result. -/
def told {ε α : Type} (wrap : ε → Failure) : Log × Except ε α → Run Failure α
  | (log, result) => do
    log.forM Run.tell
    Run.ofExcept wrap result

/-- A viewer of the executions in a file. -/
def openViewer (input : Path) : Run Failure Viewer := do
  let executions ← told .unreadable (Payload.load levels (← Run.files) input.toText)
  let (notice, viewer) ← Run.ofExcept .refused (Viewer.ofExecutions executions)
  Run.tell notice
  return viewer

/-- The viewer with the execution of an index selected. -/
def select (viewer : Viewer) : Option Int → Run Failure Viewer
  | none => throw .noIndex
  | some index => do
    let (notice, viewer) ← Run.ofExcept .refused (viewer.select index)
    Run.tell notice
    return viewer

/-- Writes a text to the standard output, all of it or nothing. -/
def print (t : Text) : Run Failure Unit := do
  let _ ← Run.ofExcept .notEncodable (Utf8.encode t)
  Run.emit t

/-- The line that lists an execution. -/
def listLine (current index : Nat) (x : Execution) : Text :=
  (if index = current then ("*" : Text) else " ") ++ " [" ++ Text.ofNat index ++ "] " ++ x.summary

/-- Lists the executions, each line as soon as it is made. -/
def printList (viewer : Viewer) : Run Failure Unit :=
  viewer.executions.zipIdx.forM fun (x, index) => do
    print (listLine viewer.index index x)
    print "\n"

/-- The viewer with the draw list that the options ask for. What the execution wants shown goes
before a list that is given. -/
def chooseDraw (viewer : Viewer) (options : Options) : Run Failure Viewer :=
  if options.shown then return viewer.drawShown
  else
    match options.relations with
    | none => return viewer
    | some names => do
      let (notice, viewer) := viewer.setDraw names
      Run.tell notice
      return viewer

/-- Delivers a drawing. A file is emptied before the drawing is encoded, so it is left empty if that
fails. -/
def deliver (dot : Text) : Destination → Run Failure Unit
  | .standard => print dot
  | .nowhere => throw .noPath
  | .file path => do
    let emptied ← Run.ofExcept .notWritable ((← Run.files).write path.toText [])
    Run.setFiles emptied
    let bytes ← Run.ofExcept .notEncodable (Utf8.encode dot)
    let written ← Run.ofExcept .notWritable (emptied.write path.toText bytes)
    Run.setFiles written
    Run.tell (.written path.toText)

/-- The name of an image, without folder and suffix: that of the file for the drawing, or else that
of the payload file with the index of the execution. -/
def imageBase (input : Path) (options : Options) (index : Nat) : Except Failure Text :=
  match options.output with
  | .file path => .ok path.stem
  | .standard | .nowhere =>
    if options.isNamed then .ok (input.stem ++ "_" ++ Text.ofNat index) else .error .noStem

/-- Makes an image of a drawing if a format is given. -/
def makeImage (engine : Engine) (dot : Text) (input : Path) (options : Options) (index : Nat) :
    Run Failure Unit :=
  match options.format with
  | none | some [] => return ()
  | some format => do
    let base ← Run.ofExcept id (imageBase input options index)
    let _ ← Run.wrapError .notExported (exportImage engine dot base format defaultFolder)

/-- A run that validates the payload file. -/
def validate (input : Path) : Run Failure Unit := do
  told .unreadable (Payload.validate levels (← Run.files) input.toText)
  Run.tell .validationDone

/-- A run that draws the execution selected. -/
def draw (engine : Engine) (input : Path) (options : Options) (viewer : Viewer) : Run Failure Unit := do
  let viewer ← chooseDraw viewer options
  let (notice, dot) ← Run.ofExcept .refused viewer.render
  Run.tell notice
  deliver dot options.output
  makeImage engine dot input options viewer.index

/-- A run. -/
def run (engine : Engine) (input : Path) (options : Options) : Run Failure Unit :=
  if options.validateOnly then validate input
  else do
    let viewer ← select (← openViewer input) options.execution
    if options.list then printList viewer else draw engine input options viewer

/-! ## A call of the program -/

/-- What a call of the program leaves behind. -/
structure Outcome where
  /-- The exit code. -/
  exitCode : Nat
  /-- What is written to the standard output. -/
  stdout : Text
  /-- What is written to the standard error. -/
  stderr : Text
  /-- The calls to the layout engine. -/
  calls : List LayoutCall
  /-- The files. -/
  files : FileTree

/-- The exit code of a run and the world that it leaves, its failure told last. -/
def complete (engine : Engine) (input : Path) (options : Options) (files : FileTree) : Nat × World :=
  match (run engine input options).execute { files } with
  | (.ok (), w) => (0, w)
  | (.error failure, w) =>
    (failure.stage.exitCode, { w with log := w.log ++ [.failed failure.stage failure.reason] })

/-- The outcome of a call with options that were understood. -/
def outcomeOfRun (engine : Engine) (input : Path) (options : Options) (files : FileTree) : Outcome :=
  let (exitCode, w) := complete engine input options files
  { exitCode
    stdout := w.stdout
    stderr := Utf8.escapeSurrogates (Log.render (.ofFlags options.verbose options.debug) w.log)
    calls := w.calls
    files := w.files }

/-- The outcome of a call. -/
def outcome (engine : Engine) (arguments : List Text) (files : FileTree) : Outcome :=
  match Options.parse arguments with
  | .error e =>
    { exitCode := 2, stdout := [], stderr := Utf8.escapeSurrogates e.report, calls := [], files }
  | .ok .help => { exitCode := 0, stdout := helpText, stderr := [], calls := [], files }
  | .ok (.run input options) => outcomeOfRun engine input options files

end CommandLine

end LitmusGraph
