import LitmusGraph.FileTree.Basic
import LitmusGraph.Json.Reader
import LitmusGraph.Log.Notice
import LitmusGraph.Payload.Reader
import LitmusGraph.Text.LineEnds

/-!
# Reading a payload from a file

A payload file is UTF-8 text, with line ends of any kind, that holds a payload as JSON.
`Payload.load` gives the notices of the reading with its result. A file that is missing, cannot
be opened, is not JSON or is no payload is a fault of its format; a few faults of other kinds are
told apart from those.

Embedded are `read_executions` (`Payload.load`) and `validate_execution_file` (`Payload.validate`), with
the exceptions that leave them: `ExecutionFormatError` is an error of the stage `reading`, and the other
stages are those of what escapes. Both take the levels of nesting that are left to the decoder when they
are called. A validation calls the loading, so it has one level less.

Out of scope: files that may not be read, links, devices, and files that change while they are read.
-/

namespace LitmusGraph

namespace Payload

/-- Why a file gives no executions. -/
inductive ReadError where
  /-- The path is too long to be asked about. -/
  | unaskable (e : FileError)
  /-- There is no file. -/
  | notFound (path : Text)
  /-- The file cannot be opened. -/
  | notOpened (path : Text) (e : FileError)
  /-- The file is not UTF-8. -/
  | notText (e : Utf8.DecodeError)
  /-- The file is not JSON. -/
  | notJson (path : Text) (e : Json.DecodeError)
  /-- The file is no payload. -/
  | notPayload (problem : Problem)

namespace ReadError

/-- The part of a run that the error counts for. A number with too many digits counts as an input
that makes no sense, and so do bytes that are no text. -/
def stage : ReadError → Stage
  | notFound _ | notOpened _ _ | notJson _ (.malformed _ _) | notPayload _ => .reading
  | notText _ | notJson _ (.tooManyDigits _) => .selection
  | unaskable _ => .writing
  | notJson _ (.tooDeep _) => .unexpected

/-- The text of the error. -/
def message : ReadError → Text
  | unaskable e => e.message
  | notFound path => "Execution file not found: " ++ path
  | notOpened path e => "Cannot open execution file: " ++ path ++ ": " ++ e.message
  | notText e => e.message
  | notJson path (.malformed fault place) =>
    "Invalid JSON in " ++ path ++ ": " ++ (Json.DecodeError.malformed fault place).message
  | notJson _ e => e.message
  | notPayload problem => problem.message

end ReadError

/-- The executions in the bytes of a file. -/
def ofBytes (levels : Nat) (path : Text) (bytes : Bytes) : Except ReadError (List Execution) := do
  let text ← (Utf8.decode bytes).mapError .notText
  let value ← (Json.decode levels text.unifyLineEnds).mapError (.notJson path)
  (executions value).mapError .notPayload

/-- The executions in a file, and what is told on the way. -/
def load (levels : Nat) (tree : FileTree) (path : Text) : Log × Except ReadError (List Execution) :=
  let normal := (Path.ofText path).toText
  match tree.exists? normal with
  | .error e => ([], .error (.unaskable e))
  | .ok false => ([], .error (.notFound path))
  | .ok true =>
    match tree.read normal with
    | .error e => ([.reading path], .error (.notOpened path e))
    | .ok bytes =>
      match ofBytes levels path bytes with
      | .error e => ([.reading path], .error e)
      | .ok xs => ([.reading path, .loaded xs.length (some path)], .ok xs)

/-- Checks that a file holds executions, and what is told on the way. The loading is one call further
down. -/
def validate (levels : Nat) (tree : FileTree) (path : Text) : Log × Except ReadError Unit :=
  let (log, result) := load (levels - 1) tree path
  match result with
  | .ok xs => (.validating path :: log ++ [.validated xs.length], .ok ())
  | .error e =>
    let told : Log := if e.stage = .reading then [.invalid e.message] else []
    (.validating path :: log ++ told, .error e)

end Payload

end LitmusGraph
