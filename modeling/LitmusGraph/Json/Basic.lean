import LitmusGraph.Decimal.Binary64
import LitmusGraph.Table

/-!
# JSON values

Whole numbers are unbounded and apart from floating-point values, which include the infinities and
the value that is not a number. The members of an object keep the order in which their names first
came, and each name occurs once.

These are the values that `json.load` makes of a text, and `Json.kindName` is the name of their type in
the messages of `parse_executions` and its helpers. A whole number read from a text never has too many
digits to be written. Out of scope: values of other types, and whole numbers with more digits than a
text can give, which a caller of `parse_executions` may make up.
-/

namespace LitmusGraph

/-- A JSON value. -/
inductive Json where
  /-- The null value. -/
  | null
  /-- A truth value. -/
  | bool (b : Bool)
  /-- A whole number. -/
  | int (n : Int)
  /-- A floating-point value. -/
  | float (x : Binary64)
  /-- A string. -/
  | string (t : Text)
  /-- An array. -/
  | array (items : List Json)
  /-- An object. -/
  | object (members : List (Text × Json))

namespace Json

/-- The members of an object, by name and in order. -/
abbrev Members := Table Json

/-- The members given one after the other, the last value of a repeated name counting. -/
def Members.ofList (given : List (Text × Json)) : Members :=
  given.foldl (fun members m => Table.insert members m.1 m.2) []

/-- The name of a value's kind, as messages give it. -/
def kindName : Json → Text
  | null => "NoneType"
  | bool _ => "bool"
  | int _ => "int"
  | float _ => "float"
  | string _ => "str"
  | array _ => "list"
  | object _ => "dict"

end Json

end LitmusGraph
