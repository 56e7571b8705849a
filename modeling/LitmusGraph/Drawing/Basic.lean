import LitmusGraph.Drawing.Statement

/-!
# Drawing an execution

The drawing of an execution has a box for each thread with its events and the chain of their names,
an invisible edge from the initial node to each thread's earliest event, and an edge for each pair
of each drawn relation. The draw list names the relations, in the order in which they are drawn.

* `Execution.render` is the text of the drawing.
* `Execution.toDot` is `render_execution`: that text, or the error that the number of a thread has too
  many digits to be written. No other number is written in a drawing.

Embedded are `render_execution`, `_thread_cluster` (`Execution.threadBlock`), `_earliest_event`
(`Event.earliest?`), `_relation_edges` (`Execution.drawnArrows`) and `DEFAULT_DRAW_ORDER`; what one line
says is in `LitmusGraph.Drawing.Statement`. Out of scope: draw lists that are no lists of names.
-/

namespace LitmusGraph

/-- The relations drawn unless a draw list is given. -/
def defaultDraw : List Text := ["rf", "co", "fr", "addr", "data", "ctrl", "rmw"]

namespace Event

/-- The event of the lowest position in program order, the first one of those. -/
def earliest? (events : List Event) : Option Event :=
  events.foldl
    (fun best e =>
      match best with
      | none => some e
      | some b => if e.po < b.po then some e else some b)
    none

end Event

namespace Execution

/-- The box of one thread with its events, the chain in the order of the events. -/
def cluster (thread : Int) (events : List Event) : List Statement :=
  [.openCluster thread, .clusterLabel thread, .clusterStyle, .clusterColor]
    ++ events.map Statement.ofEvent
    ++ [.chain (events.map Event.name), .closeCluster]

/-- The edge that holds a thread below the initial node, if the thread has an event. -/
def anchor (events : List Event) : List Statement :=
  (Event.earliest? events).toList.map fun e => .anchor e.name

/-- The box of one thread and its anchor. -/
def threadBlock (x : Execution) (thread : Int) : List Statement :=
  cluster thread (x.eventsOf thread) ++ anchor (x.eventsOf thread)

/-- The edges of a relation. -/
def arrows (r : Relation) : List Statement :=
  r.edges.map fun e => .arrow r.name e.source e.target

/-- The edges of all relations of the draw list, in its order. -/
def drawnArrows (x : Execution) (draw : List Text) : List Statement :=
  draw.flatMap fun name => (x.relationsNamed name).flatMap arrows

/-- The statements that draw an execution. -/
def drawing (x : Execution) (draw : List Text) : List Statement :=
  [.openGraph, .initial] ++ x.threads.flatMap x.threadBlock ++ x.drawnArrows draw ++ [.closeGraph]

/-- The drawing as DOT text, a line feed behind each statement. -/
def render (x : Execution) (draw : List Text) : Text :=
  (x.drawing draw).flatMap fun s => s.toText ++ "\n"

/-- The numbers of the threads can be written. -/
def IsDrawable (x : Execution) : Prop := ∀ t ∈ x.threads, Text.IsWritable t

instance : DecidablePred IsDrawable := fun x => inferInstanceAs (Decidable (∀ t ∈ x.threads, _))

/-- The drawing as DOT text, unless the number of a thread has too many digits. -/
def toDot (x : Execution) (draw : List Text) : Except Text.TooManyDigits Text :=
  if x.IsDrawable then .ok (x.render draw) else .error {}

theorem toDot_eq_ok_iff {x : Execution} {draw : List Text} {dot : Text} :
    x.toDot draw = .ok dot ↔ x.IsDrawable ∧ dot = x.render draw := by
  unfold toDot
  split
  · next h => exact ⟨fun heq => ⟨h, (Except.ok.inj heq).symm⟩, fun heq => congrArg Except.ok heq.2.symm⟩
  · next h => exact ⟨nofun, fun heq => absurd heq.1 h⟩

end Execution

end LitmusGraph
