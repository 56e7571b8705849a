import LitmusGraph.Execution.Basic
import LitmusGraph.Payload.Problem

/-!
# Reading a payload

`Payload.executions` takes the executions out of a decoded value: a list of executions, one
execution alone, or an object that holds either under `graphs`. The first problem in reading order
is reported: executions and events one after the other, and inside an execution the events, then the
sets, the relations and the names to show.

Embedded are `parse_executions` (`Payload.executions`) and its helpers `_parse_execution`,
`_parse_event`, `_parse_set`, `_parse_relation`, `_parse_edge`, `_as_list`, `_parse_string` and
`_parse_int`, each as the reader of the same noun. Out of scope: pairs given as tuples, which are in no
value that was read from a text.
-/

namespace LitmusGraph

namespace Payload

/-- The items of a list. -/
def items (field : Text) : Json → Except Problem (List Json)
  | .array items => .ok items
  | found => .error (.notList field found)

/-- The text of a string. -/
def string (field : Text) : Json → Except Problem Text
  | .string t => .ok t
  | found => .error (.notString field found)

/-- The value of a whole number. -/
def integer (field : Text) : Json → Except Problem Int
  | .int n => .ok n
  | found => .error (.notInteger field found)

/-- The value under a required key. -/
def require (owner : Owner) (key : Text) (members : Json.Members) : Except Problem Json :=
  match members.get? key with
  | some value => .ok value
  | none => .error (.missing owner key)

/-- The items under an optional key, none if it is absent. -/
def optionalItems (key : Text) (members : Json.Members) : Except Problem (List Json) :=
  match members.get? key with
  | some value => items key value
  | none => .ok []

/-- Reads each item of a list; a problem says in which item it lies. -/
def readEach {α : Type} (inside : Nat → Problem → Problem) (read : Json → Except Problem α)
    (values : List Json) : Except Problem (List α) :=
  values.zipIdx.mapM fun (value, index) => (read value).mapError (inside index)

/-- The decoded instruction of an event: null and absent are the same. -/
def instr? (members : Json.Members) : Except Problem (Option Text) :=
  match members.get? "instr" with
  | none | some .null => .ok none
  | some value => (string "instr" value).map some

/-- The value that an event observed, as text: null and absent are the same. -/
def observed? (members : Json.Members) : Option Text :=
  match members.get? "value" with
  | none | some .null => none
  | some value => some value.toText

/-- Reads an event. -/
def event : Json → Except Problem Event
  | .object members => do
    let instr ← instr? members
    let opcode ← string "opcode" (← require .executionOrEvent "opcode" members)
    let po ← integer "po" (← require .executionOrEvent "po" members)
    let thread ← integer "thread_id" (← require .executionOrEvent "thread_id" members)
    let name ← string "name" (← require .executionOrEvent "name" members)
    return { instr, opcode, po, thread, name, value := observed? members }
  | found => .error (.notObject found)

/-- Reads a set. -/
def set : Json → Except Problem EventSet
  | .object members => do
    let name ← string "set name" (← require .set "name" members)
    let elems ← items "elems" (← require .set "elems" members)
    return { name, elems := ← elems.mapM (string "set element") }
  | found => .error (.notSet found)

/-- Reads an edge of a relation. -/
def edge (relation : Text) : Json → Except Problem Edge
  | .array [source, target] => do
    let source ← string "edge source" source
    let target ← string "edge target" target
    return { source, target }
  | found => .error (.notPair relation found)

/-- Reads a relation. -/
def relation : Json → Except Problem Relation
  | .object members => do
    let name ← string "relation name" (← require .relation "name" members)
    let edges ← items "edges" (← require .relation "edges" members)
    return { name, edges := ← edges.mapM (edge name) }
  | found => .error (.notRelation found)

/-- Reads an execution. -/
def execution : Json → Except Problem Execution
  | .object members => do
    let events ← items "events" (← require .executionOrEvent "events" members)
    let events ← readEach .inEvent event events
    let sets ← (← optionalItems "sets" members).mapM set
    let relations ← (← optionalItems "relations" members).mapM relation
    let shown ← (← optionalItems "show" members).mapM (string "show")
    return { events, sets, relations, shown }
  | found => .error (.notObject found)

/-- The value that should list the executions: the one under `graphs`, or an object as the only
item of a list, or else the value itself. -/
def listing : Json → Json
  | .object members => (Table.get? members "graphs").getD (.array [.object members])
  | value => value

/-- Reads the executions of a payload. -/
def executions (payload : Json) : Except Problem (List Execution) :=
  match listing payload with
  | .array values => readEach .inExecution execution values
  | found => .error (.notExecutions found)

end Payload

end LitmusGraph
