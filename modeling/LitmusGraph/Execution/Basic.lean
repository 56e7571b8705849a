import LitmusGraph.Table

/-!
# Candidate executions

A candidate execution of a concurrent program: its events, the named sets of events, the named
relations between events, and the names of the relations to show. Events, sets and relations keep
the order in which the evaluator sent them, and names may repeat.

* `Execution.threads` lists the threads, each once, in the order of their first events.
* `Execution.eventsOf` is what one thread did, in the order of the events.
* `Execution.relationsNamed`, `Execution.relation?`, `Execution.set?` and `Execution.event?` look up
  by name.
* `Execution.edgeCounts` adds up the edges of each relation name.

Embedded are the classes `ModelEvent` (with `label`), `ModelSet`, `ModelRelation` and `Execution`, and
of the last one `thread_ids`, `events_of`, `event_named`, `relations_named`, `relation`, `set_named` and
`edge_counts`. Out of scope: that the records are frozen, their hashes, and fields of other types than
those declared.
-/

namespace LitmusGraph

/-- One dynamic instance of an instruction. -/
structure Event where
  /-- The decoded instruction, if the evaluator could decode it. -/
  instr : Option Text
  /-- The raw opcode. -/
  opcode : Text
  /-- The position in program order within the thread. -/
  po : Int
  /-- The thread that ran the instruction. -/
  thread : Int
  /-- The name of the event, which is also its node in a drawing. -/
  name : Text
  /-- The value observed, if any. -/
  value : Option Text
deriving DecidableEq

/-- A named set of events, by their names. -/
structure EventSet where
  /-- The name of the set. -/
  name : Text
  /-- The names of the events, in the given order and as often as given. -/
  elems : List Text
deriving DecidableEq

/-- A pair of events, by their names. -/
structure Edge where
  /-- The first event. -/
  source : Text
  /-- The second event. -/
  target : Text
deriving DecidableEq

/-- A named relation between events. -/
structure Relation where
  /-- The name of the relation. -/
  name : Text
  /-- The pairs, in the given order and as often as given. -/
  edges : List Edge
deriving DecidableEq

/-- A candidate execution. -/
structure Execution where
  /-- The events of all threads. -/
  events : List Event
  /-- The named sets. -/
  sets : List EventSet
  /-- The named relations. -/
  relations : List Relation
  /-- The names of the relations that the evaluator wants shown. -/
  shown : List Text
deriving DecidableEq

namespace Event

/-- The decoded instruction, or the raw opcode where decoding gave nothing. -/
def label (e : Event) : Text :=
  match e.instr with
  | some (c :: rest) => c :: rest
  | _ => e.opcode

end Event

namespace Execution

/-- The threads, each once, in the order of their first events. -/
def threads (x : Execution) : List Int := (x.events.map Event.thread).eraseDups

/-- The events of one thread, in the order of the events. -/
def eventsOf (x : Execution) (thread : Int) : List Event := x.events.filter (·.thread = thread)

/-- The first event of a name. -/
def event? (x : Execution) (name : Text) : Option Event := x.events.find? (·.name = name)

/-- The first set of a name. -/
def set? (x : Execution) (name : Text) : Option EventSet := x.sets.find? (·.name = name)

/-- All relations of a name, in order. -/
def relationsNamed (x : Execution) (name : Text) : List Relation :=
  x.relations.filter (·.name = name)

/-- The first relation of a name. -/
def relation? (x : Execution) (name : Text) : Option Relation := (x.relationsNamed name).head?

/-- Adds the edges of a relation to the count of its name. -/
def addCount (counts : Table Nat) (r : Relation) : Table Nat :=
  counts.insert r.name ((counts.get? r.name).getD 0 + r.edges.length)

/-- How many edges the relations of each name have, the names in the order of their first
relations. -/
def edgeCounts (x : Execution) : Table Nat := x.relations.foldl addCount []

end Execution

end LitmusGraph
