import LitmusGraph.Execution.Basic
import LitmusGraph.Text.Quoted

/-!
# Executions as text

`Event.summary` and `Execution.summary` are the short forms that listings use;
`Execution.display` shows every field. A form with the numbers of an event in it is not written if one
of them has too many digits.

Embedded are `ModelEvent.__str__`, `Execution.__str__` and the representations of `ModelEvent`,
`ModelSet`, `ModelRelation` and `Execution`, an edge being a pair. Out of scope: counts with too many
digits, since no list in memory is as long as that.
-/

namespace LitmusGraph

/-- A tuple of texts: parenthesised, with a comma behind a lone item. -/
def Text.tuple : List Text → Text
  | [item] => "(" ++ item ++ ",)"
  | items => "(" ++ join ", " items ++ ")"

/-- An optional text in quoted form. -/
def Text.quotedOption : Option Text → Text
  | none => "None"
  | some t => t.quoted

namespace Event

/-- The name, thread, position and label of an event. -/
def summary (e : Event) : Except Text.TooManyDigits Text := do
  let thread ← Text.writeInt e.thread
  let po ← Text.writeInt e.po
  return e.name ++ "@T" ++ thread ++ "#" ++ po ++ ":" ++ e.label

/-- The event with all its fields. -/
def display (e : Event) : Except Text.TooManyDigits Text := do
  let po ← Text.writeInt e.po
  let thread ← Text.writeInt e.thread
  return "ModelEvent(instr=" ++ Text.quotedOption e.instr ++ ", opcode=" ++ e.opcode.quoted
    ++ ", po=" ++ po ++ ", thread_id=" ++ thread
    ++ ", name=" ++ e.name.quoted ++ ", value=" ++ Text.quotedOption e.value ++ ")"

end Event

namespace EventSet

/-- The set with all its fields. -/
def display (s : EventSet) : Text :=
  "ModelSet(name=" ++ s.name.quoted ++ ", elems=" ++ Text.tuple (s.elems.map Text.quoted) ++ ")"

end EventSet

namespace Relation

/-- The relation with all its fields. -/
def display (r : Relation) : Text :=
  "ModelRelation(name=" ++ r.name.quoted ++ ", edges="
    ++ Text.tuple (r.edges.map fun e => Text.tuple [e.source.quoted, e.target.quoted]) ++ ")"

end Relation

namespace Execution

/-- The names of the relations in order, or a dash where that leaves nothing to read. -/
def relationNames (x : Execution) : Text :=
  match Text.join "," (x.relations.map Relation.name) with
  | [] => "-"
  | names => names

/-- How many events and threads there are, and the names of the relations. -/
def summary (x : Execution) : Text :=
  "Execution(events=" ++ Text.ofNat x.events.length ++ ", threads=" ++ Text.ofNat x.threads.length
    ++ ", relations=" ++ x.relationNames ++ ")"

/-- The execution with all its fields. -/
def display (x : Execution) : Except Text.TooManyDigits Text := do
  let events ← x.events.mapM Event.display
  return "Execution(events=" ++ Text.tuple events
    ++ ", sets=" ++ Text.tuple (x.sets.map EventSet.display)
    ++ ", relations=" ++ Text.tuple (x.relations.map Relation.display)
    ++ ", show=" ++ Text.tuple (x.shown.map Text.quoted) ++ ")"

end Execution

end LitmusGraph
