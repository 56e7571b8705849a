import LitmusGraph.FileTree.Fault
import LitmusGraph.FileTree.Path
import LitmusGraph.Table
import LitmusGraph.Text.Utf8

/-!
# File trees

A tree of folders and files with a working folder in it. A path is followed part by part from the
root or from the working folder: every part but the last must lead to a folder, a single dot stays,
a double dot goes up, and the root is its own parent.

* `FileTree.exists?`, `FileTree.read`, `FileTree.write` and `FileTree.makeFolder` are the
  operations, each refusing with a `FileError`.
* `FileTree.makeFolders` makes a folder and those above it. It may fail half way, so it always
  returns the tree as it left it.

Embedded is the file system as the program uses it: `Path.exists` and `open` for reading
(`read_executions`), `open` for writing (`write_output`), and `os.path.exists` and `os.makedirs`
(`export_graph`). Out of scope: permissions, links, devices, quotas, and other programs that change the
files meanwhile. In a tree without them these operations refuse for the reasons of `FileFault` only.
-/

namespace LitmusGraph

/-- A file or a folder. -/
inductive Node where
  /-- A file with its content. -/
  | file (content : Bytes)
  /-- A folder with its entries by name. -/
  | folder (entries : List (Text × Node))

/-- A tree with a working folder. -/
structure FileTree where
  /-- The root folder. -/
  root : Node
  /-- The names that lead from the root to the working folder. -/
  working : List Text

namespace Node

/-- The node that names lead to. -/
def at? : Node → List Text → Option Node
  | node, [] => some node
  | .file _, _ :: _ => none
  | .folder entries, name :: rest => (Table.get? entries name).bind (at? · rest)

/-- The node with another one put where names lead to. Folders on the way are there already. -/
def put : Node → List Text → Node → Node
  | _, [], new => new
  | .file content, _ :: _, _ => .file content
  | .folder entries, name :: rest, new =>
    .folder (Table.insert entries name (put ((Table.get? entries name).getD (.folder [])) rest new))

mutual

/-- All that lies in a folder, with the names that lead there; nothing for a file. -/
def contents : Node → List (List Text × Option Bytes)
  | .file _ => []
  | .folder entries => entryContents entries

/-- The entries of a folder, each followed by all that lies in it. -/
def entryContents : List (Text × Node) → List (List Text × Option Bytes)
  | [] => []
  | (name, node) :: rest =>
    let content : Option Bytes := match node with | .file content => some content | .folder _ => none
    ([name], content) :: (contents node).map (fun c => (name :: c.1, c.2)) ++ entryContents rest

end

end Node

/-- A place in a tree, by the way that leads to it: the names passed on the way from the root, each
with its node, the last one first. -/
abbrev Trail := List (Text × Node)

namespace Trail

/-- The node at the end of a trail. -/
def node (root : Node) : Trail → Node
  | [] => root
  | (_, node) :: _ => node

/-- The names along a trail, from the root on. -/
def names (trail : Trail) : List Text := (trail.map Prod.fst).reverse

end Trail

namespace FileTree

/-- The greatest number of bytes of a name. -/
def maxName : Nat := 255

/-- The number of bytes that a whole path must stay below. -/
def maxPath : Nat := 4096

/-- The greatest number of missing folders that are made at once. Each of them is one more call inside
the others, of the thousand that may be open. The program and `export_graph` take two, and so does the
look at the first folder. -/
def maxMissing : Nat := 1000 - 4

/-- The number of bytes of a name or path. -/
def byteLength (t : Text) : Nat := (t.flatMap CodePoint.pathBytes).length

/-- Follows the pieces of a path on from a place in the tree. A piece may only follow where there is
a folder. -/
def follow (root : Node) : Trail → List Text → Except FileFault Trail
  | trail, [] => .ok trail
  | trail, piece :: rest =>
    match trail.node root with
    | .file _ => .error .notFolder
    | .folder entries =>
      if piece = [] ∨ piece = (("." : Text)) then follow root trail rest
      else if piece = ((".." : Text)) then follow root trail.tail rest
      else if maxName < byteLength piece then .error .nameTooLong
      else
        match Table.get? entries piece with
        | none => .error .notFound
        | some node => follow root ((piece, node) :: trail) rest

/-- What is wrong with a path whatever the tree: it cannot be encoded, it holds a NUL, it is too long,
or it is empty. -/
def checkPath (path : Text) : Except FileFault Unit :=
  match Utf8.firstRefused? CodePoint.isUnnameable path with
  | some e => .error (.notEncodable e)
  | none =>
    if path.contains CodePoint.nul then .error .embeddedNul
    else if maxPath ≤ byteLength path then .error .nameTooLong
    else if path.isEmpty then .error .notFound
    else .ok ()

/-- The pieces that lead from the root along a path: those of the path, behind the names of the
working folder unless the path is absolute. -/
def steps (tree : FileTree) (path : Text) : List Text :=
  if path.head? = some ('/' : CodePoint) then path.pieces else tree.working ++ path.pieces

/-- The place that a path leads to. -/
def locate (tree : FileTree) (path : Text) : Except FileFault Trail := do
  checkPath path
  follow tree.root [] (tree.steps path)

/-- The names that lead to the folder in which a path's last piece stands, the entries of that
folder, and the piece. -/
def locateParent (tree : FileTree) (path : Text) :
    Except FileFault (List Text × Table Node × Text) := do
  checkPath path
  let trail ← follow tree.root [] (tree.steps path).dropLast
  match trail.node tree.root with
  | .folder entries => return (trail.names, entries, (tree.steps path).getLast?.getD [])
  | .file _ => throw .notFolder

/-- Whether a path leads somewhere. The one refusal is that of a path too long to be asked about. -/
def exists? (tree : FileTree) (path : Text) : Except FileError Bool :=
  match tree.locate path with
  | .ok _ => .ok true
  | .error .nameTooLong => .error { fault := .nameTooLong, path }
  | .error _ => .ok false

/-- The content of the file at a path. -/
def read (tree : FileTree) (path : Text) : Except FileError Bytes :=
  match tree.locate path with
  | .error fault => .error { fault, path }
  | .ok trail =>
    match trail.node tree.root with
    | .file content => .ok content
    | .folder _ => .error { fault := .isFolder, path }

/-- Whether a piece of a path names nothing new: it is empty, or one or two dots. -/
def isStep (piece : Text) : Bool := piece = [] || piece = (("." : Text)) || piece = ((".." : Text))

/-- Writes a file, in place of the one that may be at the path. -/
def write (tree : FileTree) (path : Text) (content : Bytes) : Except FileError FileTree :=
  match tree.locateParent path with
  | .error fault => .error { fault, path }
  | .ok (place, entries, name) =>
    if isStep name then .error { fault := .isFolder, path }
    else if maxName < byteLength name then .error { fault := .nameTooLong, path }
    else
      match entries.get? name with
      | some (.folder _) => .error { fault := .isFolder, path }
      | _ => .ok { tree with root := tree.root.put (place ++ [name]) (.file content) }

/-- Makes an empty folder, the slashes behind its name not counting. -/
def makeFolder (tree : FileTree) (path : Text) : Except FileError FileTree :=
  let isSlash (c : CodePoint) : Bool := c = ('/' : CodePoint)
  match checkPath path with
  | .error fault => .error { fault, path }
  | .ok () =>
    match (path.reverse.dropWhile isSlash).reverse with
    | [] => .error { fault := .alreadyExists, path }
    | trimmed =>
      match tree.locateParent trimmed with
      | .error fault => .error { fault, path }
      | .ok (place, entries, name) =>
        if isStep name then .error { fault := .alreadyExists, path }
        else if maxName < byteLength name then .error { fault := .nameTooLong, path }
        else if (entries.get? name).isSome then .error { fault := .alreadyExists, path }
        else .ok { tree with root := tree.root.put (place ++ [name]) (.folder []) }

/-- Whether a path leads somewhere, where a path that cannot be followed leads nowhere. -/
def reaches (tree : FileTree) (path : Text) : Bool :=
  match tree.locate path with
  | .ok _ => true
  | .error _ => false

/-- The path of the folder above, without the slashes behind it unless it is the root, and the last
name of a path. Slashes at the end of the path do not count. -/
def headAndTail (path : Text) : Text × Text :=
  let split (t : Text) : Text × Text :=
    let (front, tail) := Text.splitBehindSlash t
    match (front.reverse.dropWhile (· = ('/' : CodePoint))).reverse with
    | [] => (front, tail)
    | head => (head, tail)
  match split path with
  | (head, []) => split head
  | parts => parts

/-- Makes a folder after those above it that are missing, `levels` folders at most. A folder above
that turns up in the meantime is no obstacle, and a single dot names the folder above once that is
made. -/
def makeFoldersWithin : (levels : Nat) → FileTree → Text → FileTree × Except FileError Unit
  | 0, tree, path => (tree, .error { fault := .tooManyMissing, path })
  | levels + 1, tree, path =>
    let (head, tail) := headAndTail path
    let make (tree : FileTree) : FileTree × Except FileError Unit :=
      match tree.makeFolder path with
      | .ok tree => (tree, .ok ())
      | .error e => (tree, .error e)
    if head ≠ [] ∧ tail ≠ [] ∧ !tree.reaches head then
      let (tree, above) := makeFoldersWithin levels tree head
      match above with
      | .ok () => if tail = (("." : Text)) then (tree, .ok ()) else make tree
      | .error e =>
        if e.fault ≠ .alreadyExists then (tree, .error e)
        else if tail = (("." : Text)) then (tree, .ok ())
        else make tree
    else make tree

/-- Makes a folder and those above it that are missing. -/
def makeFolders (tree : FileTree) (path : Text) : FileTree × Except FileError Unit :=
  makeFoldersWithin maxMissing tree path

/-- All that lies in the working folder: each path, with the content if it is a file. -/
def listing (tree : FileTree) : List (Text × Option Bytes) :=
  match tree.root.at? tree.working with
  | some node => node.contents.map fun c => (Text.join "/" c.1, c.2)
  | none => []

end FileTree

end LitmusGraph
