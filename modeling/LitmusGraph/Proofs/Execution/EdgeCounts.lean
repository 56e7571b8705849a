import LitmusGraph.Proofs.Execution.Threads
import Mathlib.Algebra.GroupWithZero.Nat

/-!
# Relations by name

Several relations of an execution may share a name. What is found and counted under a name are the
edges of all of them, in the order of the relations. The counts are kept in a table that grows while
the relations are gone through: the table has the names in the order of their first relations, and
under each name the number of edges found under it.

Results:
* `withRelation_induction`: executions are built up relation by relation.
* `names_edgeCounts`, `get?_edgeCounts`: the table of counts, said without going through the
  relations.
* `sum_edgeCounts`: no edge is counted twice, and none is left out.
* `mem_names_iff_relation?`, `relation?_eq_some_iff`: what is looked up by name.
* `edgeCounts_eq_of_edgesNamed`: the counts of two executions agree if what is found agrees.
-/

namespace LitmusGraph

/-- Setting a number in a table moves the total from the old number to the new one. -/
theorem Table.sum_insert (t : Table Nat) (name : Text) (n : Nat) :
    ((t.insert name n).map Prod.snd).sum + (t.get? name).getD 0 = (t.map Prod.snd).sum + n := by
  induction t with
  | nil => simp [insert]
  | cons entry rest ih =>
    obtain ⟨k, v⟩ := entry
    rw [insert, get?_cons]
    by_cases h : k = name
    · rw [if_pos h, if_pos h.symm]
      simp only [List.map_cons, List.sum_cons, Option.getD_some]
      omega
    · rw [if_neg h, if_neg (Ne.symm h)]
      simp only [List.map_cons, List.sum_cons]
      omega

namespace Execution

/-- The names of the relations, as often as they come. -/
def names (x : Execution) : List Text := x.relations.map Relation.name

/-- The edges of all relations of a name, in order. -/
def edgesNamed (x : Execution) (name : Text) : List Edge :=
  (x.relationsNamed name).flatMap Relation.edges

/-- An execution with one relation more. -/
def withRelation (x : Execution) (r : Relation) : Execution :=
  { x with relations := x.relations ++ [r] }

/-- Executions are built up relation by relation. -/
theorem withRelation_induction {motive : Execution → Prop}
    (bare : ∀ x : Execution, x.relations = [] → motive x)
    (further : ∀ (x : Execution) (r : Relation), motive x → motive (x.withRelation r))
    (x : Execution) : motive x := by
  obtain ⟨events, sets, relations, shown⟩ := x
  induction relations using List.reverseRecOn with
  | nil => exact bare _ rfl
  | append_singleton rs r ih => exact further _ r ih

/-! ## What is found under a name -/

@[simp] theorem names_withRelation (x : Execution) (r : Relation) :
    (x.withRelation r).names = x.names ++ [r.name] := by
  simp [names, withRelation]

theorem edgesNamed_withRelation (x : Execution) (r : Relation) (name : Text) :
    (x.withRelation r).edgesNamed name =
      x.edgesNamed name ++ if name = r.name then r.edges else [] := by
  by_cases h : r.name = name
  · simp [edgesNamed, relationsNamed, withRelation, h]
  · simp [edgesNamed, relationsNamed, withRelation, h, Ne.symm h]

/-- Nothing is found under a name that no relation has. -/
theorem edgesNamed_eq_nil {x : Execution} {name : Text} (h : name ∉ x.names) :
    x.edgesNamed name = [] := by
  have hnone : x.relationsNamed name = [] := by
    refine List.filter_eq_nil_iff.mpr fun r hr hname => h ?_
    exact List.mem_map.mpr ⟨r, hr, of_decide_eq_true hname⟩
  rw [edgesNamed, hnone, List.flatMap_nil]

/-! ## What is counted under a name -/

theorem edgeCounts_withRelation (x : Execution) (r : Relation) :
    (x.withRelation r).edgeCounts = addCount x.edgeCounts r := by
  rw [edgeCounts, withRelation, List.foldl_append]
  rfl

/-- **The names counted** are those of the relations, each at its first place. -/
theorem names_edgeCounts (x : Execution) : x.edgeCounts.names = x.names.eraseDups := by
  induction x using withRelation_induction with
  | bare x h => simp [edgeCounts, names, h]
  | further x r ih =>
    rw [edgeCounts_withRelation, addCount, Table.names_insert, ih, names_withRelation, eraseDups_snoc]
    simp only [List.mem_eraseDups]

/-- **The count of a name** is the number of edges found under it. -/
theorem get?_edgeCounts (x : Execution) (name : Text) :
    x.edgeCounts.get? name = if name ∈ x.names then some (x.edgesNamed name).length else none := by
  induction x using withRelation_induction with
  | bare x h => simp [edgeCounts, names, h]
  | further x r ih =>
    rw [edgeCounts_withRelation, addCount, Table.get?_insert, edgesNamed_withRelation, names_withRelation]
    by_cases hname : name = r.name
    · subst hname
      by_cases hmem : r.name ∈ x.names
      · simp [ih, hmem]
      · simp [ih, hmem, edgesNamed_eq_nil hmem]
    · simp [ih, hname]

/-- A name counts as much as is found under it, whether a relation has it or not. -/
theorem getD_get?_edgeCounts (x : Execution) (name : Text) :
    (x.edgeCounts.get? name).getD 0 = (x.edgesNamed name).length := by
  rw [get?_edgeCounts]
  split
  · rfl
  · next h => rw [edgesNamed_eq_nil h]; rfl

/-- The numbers of edges of the relations of a name add up to the number of edges found under it. -/
theorem length_edgesNamed (x : Execution) (name : Text) :
    (x.edgesNamed name).length = ((x.relationsNamed name).map fun r => r.edges.length).sum :=
  List.length_flatMap

/-- **Every edge is counted once.** -/
theorem sum_edgeCounts (x : Execution) :
    (x.edgeCounts.map Prod.snd).sum = (x.relations.map fun r => r.edges.length).sum := by
  induction x using withRelation_induction with
  | bare x h => simp [edgeCounts, h]
  | further x r ih =>
    have hinsert := x.edgeCounts.sum_insert r.name
      ((x.edgeCounts.get? r.name).getD 0 + r.edges.length)
    have htotal : ((x.withRelation r).relations.map fun q => q.edges.length).sum =
        (x.relations.map fun q => q.edges.length).sum + r.edges.length := by
      simp [withRelation]
    rw [edgeCounts_withRelation, addCount, htotal, ← ih]
    omega

theorem nodup_names_edgeCounts (x : Execution) : x.edgeCounts.names.Nodup :=
  x.names_edgeCounts ▸ nodup_eraseDups _

/-! ## What is looked up by name -/

/-- A relation is found under the names of relations. -/
theorem mem_names_iff_relation? (x : Execution) (name : Text) :
    name ∈ x.names ↔ x.relation? name ≠ none := by
  rw [relation?, relationsNamed, List.head?_filter, ne_eq, List.find?_eq_none, names, List.mem_map]
  simp

/-- **The relation found** is the first one of the name. -/
theorem relation?_eq_some_iff {x : Execution} {name : Text} {r : Relation} :
    x.relation? name = some r ↔ r.name = name ∧
      ∃ front back, x.relations = front ++ r :: back ∧ ∀ q ∈ front, q.name ≠ name := by
  rw [relation?, relationsNamed, List.head?_filter, List.find?_eq_some_iff_append]
  simp

/-- **The counts agree**, the order of their names included, if the names first come in the same
order and the same is found under each. -/
theorem edgeCounts_eq_of_edgesNamed {x y : Execution} (hnames : x.names.eraseDups = y.names.eraseDups)
    (h : ∀ name, x.edgesNamed name = y.edgesNamed name) : x.edgeCounts = y.edgeCounts := by
  refine Table.eq_of_get?_eq ?_ x.nodup_names_edgeCounts fun name => ?_
  · rw [names_edgeCounts, names_edgeCounts, hnames]
  · have hmem : name ∈ x.names ↔ name ∈ y.names := by
      rw [← List.mem_eraseDups, hnames, List.mem_eraseDups]
    simp only [get?_edgeCounts, h name, hmem]

end Execution

end LitmusGraph
