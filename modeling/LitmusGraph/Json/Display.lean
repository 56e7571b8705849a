import LitmusGraph.Decimal.Shortest
import LitmusGraph.Json.Basic
import LitmusGraph.Text.Quoted

/-!
# Values as text

`Json.display` shows a value inside a message: strings in quoted form, numbers in decimal or as
shortest decimals, arrays and objects with a comma and a space between their parts. `Json.toText`
is the same but for a string, which is its own text.

Embedded are the representation of a value, which the messages of `parse_executions` and its helpers
show, and `str` as `_parse_event` applies it to an observed value. Out of scope: whole numbers with too
many digits, which are in no value that was read from a text.
-/

namespace LitmusGraph

namespace Json

mutual

/-- The value as messages show it. -/
def display : Json → Text
  | null => "None"
  | bool true => "True"
  | bool false => "False"
  | int n => Text.ofInt n
  | float x => x.toText
  | string t => t.quoted
  | array items => "[" ++ Text.join ", " (displayItems items) ++ "]"
  | object members => "\x7b" ++ Text.join ", " (displayMembers members) ++ "\x7d"

/-- The items of an array, each as messages show it. -/
def displayItems : List Json → List Text
  | [] => []
  | item :: rest => display item :: displayItems rest

/-- The members of an object, each as messages show it. -/
def displayMembers : List (Text × Json) → List Text
  | [] => []
  | (name, value) :: rest => (name.quoted ++ ": " ++ display value) :: displayMembers rest

end

/-- The value as text. -/
def toText : Json → Text
  | string t => t
  | value => value.display

end Json

end LitmusGraph
