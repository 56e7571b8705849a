import LitmusGraph.Proofs.Drawing.LineCount
import LitmusGraph.Proofs.Drawing.Multiplicity

/-!
# Edges are counted as they are found and drawn

The edges of an execution are told in three ways: counted by name in one pass over the relations,
found by a look-up of the relations of a name, and drawn. All three tell the same. The table of counts
has each name of a relation once, the names in the order of their first relations, and a name that it
does not have counts nothing, is found nowhere and draws nothing.

Results:
* `length_arrows_drawing`: as many edges are drawn for a name as are counted.
* `edgeCounts_agree_with_lookups`: **the table of counts says what look-ups find** and what drawings
  show.
-/

namespace LitmusGraph

namespace Execution

/-- What the table of counts of an execution has to do with its relations, with what is found by name
and with what is drawn. -/
structure CountsLookups (x : Execution) : Prop where
  /-- Each name is counted once. -/
  nodup : x.edgeCounts.names.Nodup
  /-- The names that are counted are those of relations. -/
  mem_iff : ∀ name, name ∈ x.edgeCounts.names ↔ ∃ r ∈ x.relations, r.name = name
  /-- The names stand in the order of their first relations. -/
  order : x.edgeCounts.names.Pairwise fun m n =>
    (x.relations.map Relation.name).idxOf m < (x.relations.map Relation.name).idxOf n
  /-- As many edges are counted under a name as its relations have. -/
  found : ∀ name, (x.edgeCounts.get? name).getD 0 =
    ((x.relationsNamed name).map fun r => r.edges.length).sum
  /-- As many edges are drawn for a name as are counted. -/
  drawn : ∀ name, x.render [name] = Text.unlines ((x.drawing [name]).map Statement.toText) ∧
    ((x.drawing [name]).filter Statement.isArrow).length = (x.edgeCounts.get? name).getD 0
  /-- A name is counted just when a relation is found under it. -/
  lookup : ∀ name, name ∈ x.edgeCounts.names ↔ x.relation? name ≠ none
  /-- The relation that is found is the first one of its name. -/
  first : ∀ name r, x.relation? name = some r →
    (∃ rest, x.relationsNamed name = r :: rest) ∧ r.name = name ∧
      ∃ front back, x.relations = front ++ r :: back ∧ ∀ q ∈ front, q.name ≠ name
  /-- All counts together are all edges. -/
  total : (x.edgeCounts.map Prod.snd).sum = (x.relations.map fun r => r.edges.length).sum

/-- As many edges are drawn for a name as are counted. -/
theorem length_arrows_drawing (x : Execution) (name : Text) :
    ((x.drawing [name]).filter Statement.isArrow).length = (x.edgeCounts.get? name).getD 0 := by
  rw [filter_isArrow_drawing, length_drawnArrows]
  exact List.sum_singleton

/-- **The table of counts says what look-ups find and what drawings show.** -/
theorem edgeCounts_agree_with_lookups (x : Execution) : x.CountsLookups where
  nodup := x.nodup_names_edgeCounts
  mem_iff name := by
    rw [names_edgeCounts, List.mem_eraseDups, names, List.mem_map]
  order := by
    rw [names_edgeCounts]
    exact pairwise_idxOf_eraseDups _
  found name := by
    rw [getD_get?_edgeCounts, length_edgesNamed]
  drawn name := ⟨x.render_eq_unlines [name], x.length_arrows_drawing name⟩
  lookup name := by
    rw [names_edgeCounts, List.mem_eraseDups, mem_names_iff_relation?]
  first name r h := by
    obtain ⟨hname, hfirst⟩ := relation?_eq_some_iff.mp h
    exact ⟨List.head?_eq_some_iff.mp h, hname, hfirst⟩
  total := x.sum_edgeCounts

end Execution

end LitmusGraph
