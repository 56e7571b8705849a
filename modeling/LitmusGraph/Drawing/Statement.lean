import LitmusGraph.Drawing.EdgeStyle
import LitmusGraph.Execution.Basic

/-!
# Statements of a drawing

A drawing is a list of DOT statements, one a line. Names, labels and values are written as they
are: a name serves as the node of its event, and nothing is escaped.

Embedded are `_event_node`, the lines that `_thread_cluster`, `_relation_edges` and `render_execution`
put together, and the constants `INITIAL_STATE_NODE`, `INITIAL_STATE_LABEL` and `INITIAL_STATE_SHAPE`.
Out of scope here: numbers with too many digits, which `Execution.toDot` refuses before a line is
written.
-/

namespace LitmusGraph

/-- The node that stands for the memory before any thread runs. -/
def initialNode : Text := "IW"

/-- The label of the initial node. -/
def initialLabel : Text := "Initial State"

/-- The shape of the initial node. -/
def initialShape : Text := "hexagon"

/-- One line of a drawing. -/
inductive Statement where
  /-- Opens the graph. -/
  | openGraph
  /-- The initial node. -/
  | initial
  /-- Opens the box of a thread. -/
  | openCluster (thread : Int)
  /-- The title of the box of a thread. -/
  | clusterLabel (thread : Int)
  /-- The dashed outline of a box. -/
  | clusterStyle
  /-- The colour of the outline of a box. -/
  | clusterColor
  /-- The node of an event, with a second line in its label if a value is given. -/
  | node (name label : Text) (value : Option Text)
  /-- The chain of a thread's events. -/
  | chain (names : List Text)
  /-- Closes the box of a thread. -/
  | closeCluster
  /-- The invisible edge from the initial node to a thread. -/
  | anchor (target : Text)
  /-- An edge of a relation. -/
  | arrow (relation source target : Text)
  /-- Closes the graph. -/
  | closeGraph
deriving DecidableEq

namespace Statement

/-- The node of an event. A value is drawn unless it is empty. -/
def ofEvent (e : Event) : Statement :=
  .node e.name e.label (e.value.filter (!·.isEmpty))

/-- The edge of a relation. The spaces around the name keep labels apart in the layout. -/
def arrowText (relation source target : Text) (style : EdgeStyle) : Text :=
  "  " ++ source ++ " -> " ++ target ++ " [color=" ++ style.color ++ ",label=\"  " ++ relation
    ++ "  \",fontcolor=" ++ style.color ++ style.extra ++ "]"

/-- The statement as written, without its line feed. -/
def toText : Statement → Text
  | openGraph => "digraph Exec \x7b"
  | initial =>
    "  " ++ initialNode ++ " [label=\"" ++ initialLabel ++ "\",shape=" ++ initialShape ++ "];"
  | openCluster thread => "  subgraph cluster" ++ Text.ofInt thread ++ " \x7b"
  | clusterLabel thread => "    label=\"Thread #" ++ Text.ofInt thread ++ "\""
  | clusterStyle => "    style=dashed"
  | clusterColor => "    color=gray50"
  | node name label none => "    " ++ name ++ " [shape=box,label=\"" ++ label ++ "\"];"
  | node name label (some value) =>
    "    " ++ name ++ " [shape=box,label=\"" ++ label ++ "\\l" ++ value ++ "\"];"
  | chain names => "    " ++ Text.join " -> " names ++ ";"
  | closeCluster => "  \x7d"
  | anchor target => "  " ++ initialNode ++ " -> " ++ target ++ " [style=invis,constraint=true]"
  | arrow relation source target =>
    arrowText relation source target (EdgeStyle.ofRelation relation)
  | closeGraph => "\x7d"

end Statement

end LitmusGraph
