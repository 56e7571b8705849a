import LitmusGraph.World

/-!
# Making an image

`exportImage` hands a drawing to the layout engine. The image goes to a folder, which is made if it
is missing; if that fails, the image goes to the working folder instead. Without an engine nothing
is done. A failure that concerns the image alone is told and leaves no image; any other one is
passed on.

Embedded is `export_graph`. As `LitmusGraph.Layout.Engine` has it, the engine changes no file of the
tree, and constructing the source that it renders never fails.
-/

namespace LitmusGraph

/-- What keeps an image from being made in a way that is passed on. -/
inductive ExportError where
  /-- The folder cannot be made, and not because the file system refused. -/
  | folder (e : FileError)
  /-- The engine failed. -/
  | engine (failure : LayoutFailure)
deriving DecidableEq

namespace ExportError

/-- The text of the error. -/
def message : ExportError → Text
  | folder e => e.message
  | engine failure => failure.message

end ExportError

/-- The folder that images go to, unless another is given. -/
def defaultFolder : Text := "execution_graphs"

/-- The format of images, unless another is given. -/
def defaultFormat : Text := "svg"

/-- The path of a name in a folder. An absolute name stands for itself. -/
def joinPath (folder name : Text) : Text :=
  if name.head? = some ('/' : CodePoint) then name
  else if folder.isEmpty || folder.getLast? = some ('/' : CodePoint) then folder ++ name
  else folder ++ "/" ++ name

/-- The path of an image without its suffix, once its folder is there. -/
def imagePath (folder base : Text) : Run ExportError Text := do
  let tree ← Run.files
  if tree.reaches folder then return joinPath folder base
  else
    let (tree, result) := tree.makeFolders folder
    Run.setFiles tree
    match result with
    | .ok () =>
      Run.tell (.folderCreated folder)
      return joinPath folder base
    | .error e =>
      if e.fault.code? = none then throw (.folder e)
      else
        Run.tell (.folderFailed folder e.message)
        return base

/-- Calls the engine. The call is kept and nothing else changes: what the engine does to files is no
part of the world. -/
def callEngine (answer : LayoutCall → Except LayoutFailure Text) (call : LayoutCall) :
    Run ExportError (Except LayoutFailure Text) := do
  modify fun w => { w with calls := w.calls ++ [call] }
  return answer call

/-- Makes an image of a drawing; the result is its path, if there is one. -/
def exportImage (engine : Engine) (dot base format folder : Text) : Run ExportError (Option Text) :=
  match engine with
  | .missing => do
    Run.tell .engineMissing
    return none
  | .installed answer => do
    let path ← imagePath folder base
    match ← callEngine answer { path, format, dot } with
    | .ok image =>
      Run.tell (.exported true ("Execution graph saved to " ++ image))
      return some image
    | .error failure =>
      if failure.isTolerated then
        Run.tell (.exported false
          ("Failed to render execution graph to " ++ path ++ "." ++ format ++ ": " ++ failure.message
            ++ ". Ensure Graphviz executables (dot) are in your system's PATH."))
        return none
      else throw (.engine failure)

end LitmusGraph
