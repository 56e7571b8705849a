import LitmusGraph.Text.Blank

/-!
# Draw lists as text

A draw list is written as names with commas between them. Blanks around a name do not count, and
neither do entries without a name.

`DrawList.ofText` is `parse_relation_list`. `DrawList.toText` is its second side: what a user writes for
a list of names.
-/

namespace LitmusGraph

namespace DrawList

/-- The names that a text lists. -/
def ofText (t : Text) : List Text :=
  ((List.splitOn (',' : CodePoint) t).map Text.strip).filter (!·.isEmpty)

/-- The text that lists names. -/
def toText (names : List Text) : Text := Text.join "," names

end DrawList

end LitmusGraph
