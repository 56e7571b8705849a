import LitmusGraph.Text.Blank
import LitmusGraph.Text.DecimalDigit

/-!
# Whole numbers on the command line

A whole number is an optional sign and decimal digits of any script, with single underscores
allowed between digits and white space around it all. More digits than `Text.maxDigits` are refused.

`Integer.ofText?` is `int` as `create_argument_parser` has it applied to the value of `--execution`.
Out of scope: other bases, and which of its faults keeps a text from being read, since the usage error
does not tell.
-/

namespace LitmusGraph

namespace Integer

/-- The values of digits with single underscores between them; `inside` tells whether a digit stands
in front. An underscore counts only between two digits. -/
def digitValues? (inside : Bool) : Text → Option (List Nat)
  | [] => if inside then some [] else none
  | c :: rest =>
    if c = ('_' : CodePoint) then if inside then digitValues? false rest else none
    else
      match c.decimalDigit? with
      | none => none
      | some d => (digitValues? true rest).map (d :: ·)

/-- The number that digits with underscores write. -/
def magnitude? (t : Text) : Option Nat :=
  match digitValues? false t with
  | none => none
  | some digits =>
    if Text.maxDigits < digits.length then none else some (digits.foldl (fun n d => 10 * n + d) 0)

/-- The number that a text writes. -/
def ofText? (t : Text) : Option Int :=
  match t.trim CodePoint.isWhiteSpace with
  | [] => none
  | sign :: rest =>
    if sign = ('-' : CodePoint) then (magnitude? rest).map fun n => -(n : Int)
    else if sign = ('+' : CodePoint) then (magnitude? rest).map fun n => (n : Int)
    else (magnitude? (sign :: rest)).map fun n => (n : Int)

end Integer

end LitmusGraph
