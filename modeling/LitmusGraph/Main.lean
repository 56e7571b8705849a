import LitmusGraph.CommandLine

/-!
# The program

Loads the files that the arguments name into a file tree, lets `CommandLine.outcome` decide on
everything, and carries the outcome out. No layout engine is attached, so a run that asks for an
image says that there is none.

This is the outermost layer, which runs the library on real arguments and files. No theorem is about it.
-/

namespace LitmusGraph

namespace Program

/-- The text as a string, for paths, which hold no surrogates. -/
def toString (t : Text) : String := String.ofList (t.map fun c => Char.ofNat c.val)

/-- The place that a piece of a path leads to. -/
def stepTo (place : List Text) (piece : Text) : List Text :=
  if piece = [] ∨ piece = (("." : Text)) then place
  else if piece = ((".." : Text)) then place.dropLast
  else place ++ [piece]

/-- Adds to a tree what the disk holds along the pieces of a path, as far as there is something. -/
def snapshot (tree : FileTree) (place : List Text) : List Text → IO FileTree
  | [] => return tree
  | piece :: rest => do
    let place := stepTo place piece
    let path := (← IO.currentDir) / toString ("/" ++ Text.join "/" place)
    if (tree.root.at? place).isSome then snapshot tree place rest
    else if ← path.isDir then
      snapshot { tree with root := tree.root.put place (.folder []) } place rest
    else if ← path.pathExists then
      let content := (← IO.FS.readBinFile path).toList
      return { tree with root := tree.root.put place (.file content) }
    else return tree

/-- The tree with what the disk holds along a path. -/
def addPath (tree : FileTree) (path : Text) : IO FileTree :=
  snapshot tree [] (tree.steps path)

/-- A tree with nothing but the folders that lead to the working folder. -/
def bareTree : IO FileTree := do
  let here := Text.ofString (← IO.currentDir).toString
  let tree : FileTree := { root := .folder [], working := here.pieces.filter (· ≠ []) }
  snapshot tree [] tree.working

/-- The paths that a call names: the payload file, and the file for the drawing if there is one. -/
def pathsOf (arguments : List Text) : List Text :=
  match Options.parse arguments with
  | .ok (.run input options) =>
    input.toText :: match options.output with | .file path => [path.toText] | _ => []
  | _ => []

/-- Writes a file to the disk if a tree holds it with another content than before. -/
def store (before after : FileTree) (path : Text) : IO Unit :=
  match after.read path with
  | .error _ => return ()
  | .ok content =>
    unless (before.read path).toOption = some content do
      IO.FS.writeBinFile (toString path) (ByteArray.mk content.toArray)

/-- Writes a text to a stream. -/
def put (stream : IO.FS.Stream) (t : Text) : IO Unit := do
  stream.write (ByteArray.mk (t.flatMap Utf8.encodeCodePoint).toArray)
  stream.flush

end Program

end LitmusGraph

open LitmusGraph in
/-- Runs the command line on the arguments of the process. -/
def main (args : List String) : IO UInt32 := do
  let arguments := args.map Text.ofString
  let paths := Program.pathsOf arguments
  let before ← paths.foldlM Program.addPath (← Program.bareTree)
  let outcome := CommandLine.outcome .missing arguments before
  paths.forM (Program.store before outcome.files)
  Program.put (← IO.getStdout) outcome.stdout
  Program.put (← IO.getStderr) outcome.stderr
  return outcome.exitCode.toUInt32
