import LitmusGraph.Text.Utf8

/-!
# Paths

A path is an anchor and parts. The anchor is empty for a relative path and one slash for an absolute
one; exactly two leading slashes are kept as they are. Reading a path drops empty parts and single
dots and keeps double dots, so that a path is written in one way only.

A path reaches the file system as bytes. A byte of a name that is not UTF-8 stands in a text as one of
the surrogates U+DC80 to U+DCFF, and becomes that byte again; no other surrogate can be in a path.

Embedded is what `main`, `read_executions` and `write_output` do with a path: reading it from an
argument, writing it as text, taking its stem, and handing it to the system. Out of scope: paths of
other systems, and a row of surrogates whose bytes are UTF-8 after all, which no name comes in.
-/

namespace LitmusGraph

namespace Text

/-- The pieces of a text between slashes. -/
def pieces (t : Text) : List Text := List.splitOn ('/' : CodePoint) t

/-- The text in front of the last slash with that slash, and the text behind it. -/
def splitBehindSlash (t : Text) : Text × Text :=
  let isName (c : CodePoint) : Bool := c ≠ ('/' : CodePoint)
  ((t.reverse.dropWhile isName).reverse, (t.reverse.takeWhile isName).reverse)

end Text

namespace CodePoint

/-- A surrogate that stands for a byte of a name which is not UTF-8. -/
def isEscapedByte (c : CodePoint) : Bool := 0xDC80 ≤ c.val && c.val ≤ 0xDCFF

/-- A code point that no path holds: a surrogate that stands for no byte. -/
def isUnnameable (c : CodePoint) : Bool := c.isSurrogate && !c.isEscapedByte

/-- The bytes of a code point in a path. -/
def pathBytes (c : CodePoint) : Bytes :=
  if c.isEscapedByte then [(c.val - 0xDC00).toUInt8] else Utf8.encodeCodePoint c

end CodePoint

/-- A path in normal form. -/
structure Path where
  /-- The slashes in front: none, one or two. -/
  anchor : Text
  /-- The names on the way, double dots included. -/
  parts : List Text
deriving DecidableEq

namespace Path

/-- The path that a text denotes. -/
def ofText (t : Text) : Path where
  anchor :=
    match (t.takeWhile (· = ('/' : CodePoint))).length with
    | 0 => []
    | 2 => "//"
    | _ => "/"
  parts := t.pieces.filter fun part => part ≠ [] ∧ part ≠ (("." : Text))

/-- The path as text. -/
def toText (p : Path) : Text :=
  match p.anchor ++ Text.join "/" p.parts with
  | [] => "."
  | t => t

/-- The last part, or nothing if the path has none. -/
def name (p : Path) : Text := p.parts.getLast?.getD []

/-- The last part without its suffix. A suffix starts at the last dot, which is neither the first
nor the last code point of the name. -/
def stem (p : Path) : Text :=
  match (p.name.reverse.dropWhile (· ≠ ('.' : CodePoint))).reverse, p.name.getLast? with
  | [], _ | [_], _ => p.name
  | upToDot, some last => if last = ('.' : CodePoint) then p.name else upToDot.dropLast
  | _, none => p.name

end Path

end LitmusGraph
