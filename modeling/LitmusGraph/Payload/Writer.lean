import LitmusGraph.Execution.Basic
import LitmusGraph.Json.Basic

/-!
# Writing a payload

The value that spells out a list of executions in full: every field of every execution, null where
an event has no instruction or no value.

The program has no such function. The writer is the second side of `Payload.executions`: the shape that
the documentation of `read_executions` gives, in full.
-/

namespace LitmusGraph

/-- An optional text as a string, or null. -/
def Json.ofOption : Option Text → Json
  | none => .null
  | some t => .string t

/-- The members of an event. -/
def Event.members (e : Event) : Json.Members :=
  [("instr", Json.ofOption e.instr), ("opcode", .string e.opcode), ("po", .int e.po),
    ("thread_id", .int e.thread), ("name", .string e.name), ("value", Json.ofOption e.value)]

/-- The event as an object. -/
def Event.toJson (e : Event) : Json := .object e.members

/-- The set as an object. -/
def EventSet.toJson (s : EventSet) : Json :=
  .object [("name", .string s.name), ("elems", .array (s.elems.map Json.string))]

/-- The edge as a list of two. -/
def Edge.toJson (e : Edge) : Json := .array [.string e.source, .string e.target]

/-- The relation as an object. -/
def Relation.toJson (r : Relation) : Json :=
  .object [("name", .string r.name), ("edges", .array (r.edges.map Edge.toJson))]

/-- The members of an execution, given its events as objects. -/
def Execution.membersWith (x : Execution) (events : List Json) : Json.Members :=
  [("events", .array events), ("sets", .array (x.sets.map EventSet.toJson)),
    ("relations", .array (x.relations.map Relation.toJson)),
    ("show", .array (x.shown.map Json.string))]

/-- The execution as an object. -/
def Execution.toJson (x : Execution) : Json := .object (x.membersWith (x.events.map Event.toJson))

/-- The payload that lists the executions. -/
def Payload.ofExecutions (xs : List Execution) : Json := .array (xs.map Execution.toJson)

end LitmusGraph
