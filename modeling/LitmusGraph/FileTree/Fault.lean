import LitmusGraph.Text.Quoted
import LitmusGraph.Text.Utf8

/-!
# Faults of the file system

Why an operation on a path is refused. The faults that the file system reports have numbers. The
others keep it from being asked: a path that cannot be encoded or holds a NUL, and too many folders to
make at once.

Embedded are the exceptions that `open`, `Path.exists` and `os.makedirs` raise in `read_executions`,
`write_output` and `export_graph`: an `OSError` if the fault has a number, and otherwise a `ValueError`
or a `RecursionError`. Out of scope: faults that no file tree shows, such as missing permissions, loops
of links, devices and a full disk.
-/

namespace LitmusGraph

/-- Why an operation on a path is refused. -/
inductive FileFault where
  /-- There is nothing at the path. -/
  | notFound
  /-- Something is at the path already. -/
  | alreadyExists
  /-- A file stands where a folder is needed. -/
  | notFolder
  /-- A folder stands where a file is needed. -/
  | isFolder
  /-- A name or the whole path is too long. -/
  | nameTooLong
  /-- The path cannot be encoded. -/
  | notEncodable (e : Utf8.EncodeError)
  /-- The path holds a NUL. -/
  | embeddedNul
  /-- More folders are missing than are made at once. -/
  | tooManyMissing
deriving DecidableEq

/-- A refusal, with the path it concerns. -/
structure FileError where
  /-- The reason. -/
  fault : FileFault
  /-- The path as the operation was given it. -/
  path : Text
deriving DecidableEq

namespace FileFault

/-- The number of a fault and its description, if the file system reports it. -/
def code? : FileFault → Option (Nat × Text)
  | notFound => some (2, "No such file or directory")
  | alreadyExists => some (17, "File exists")
  | notFolder => some (20, "Not a directory")
  | isFolder => some (21, "Is a directory")
  | nameTooLong => some (36, "File name too long")
  | notEncodable _ | embeddedNul | tooManyMissing => none

end FileFault

namespace FileError

/-- The text of the error. -/
def message (e : FileError) : Text :=
  match e.fault.code?, e.fault with
  | some (number, description), _ =>
    "[Errno " ++ Text.ofNat number ++ "] " ++ description ++ ": " ++ e.path.quoted
  | none, .notEncodable refused => refused.message
  | none, .tooManyMissing => "maximum recursion depth exceeded"
  | none, _ => "embedded null byte"

end FileError

end LitmusGraph
