import LitmusGraph.Table

/-!
# Edge styles

Each well-known relation has a colour of its own; all others share the default style. Coherence
alone takes part in ranking, so that the writes to one location line up.

Embedded are the style table with `color_of` and `extra_attributes_of`, in that both look a style up by
the name of the relation and fall back to the default one.
-/

namespace LitmusGraph

/-- How the edges of a relation look. -/
structure EdgeStyle where
  /-- The colour of the edge and of its label. -/
  color : Text
  /-- Further attributes, each with a comma in front. -/
  extra : Text := []
deriving DecidableEq

namespace EdgeStyle

/-- The style of a relation that the table does not know. -/
def default : EdgeStyle := { color := "black" }

/-- The styles of the well-known relations. -/
def table : Table EdgeStyle :=
  [("rf", { color := "crimson" }),
    ("co", { color := "goldenrod", extra := ",constraint=true" }),
    ("fr", { color := "limegreen" }),
    ("addr", { color := "blue2" }),
    ("data", { color := "darkgreen" }),
    ("ctrl", { color := "darkorange2" }),
    ("rmw", { color := "firebrick4" })]

/-- The style of a relation, by its name. -/
def ofRelation (name : Text) : EdgeStyle := (table.get? name).getD default

end EdgeStyle

end LitmusGraph
