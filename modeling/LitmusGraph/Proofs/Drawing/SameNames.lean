import LitmusGraph.Proofs.Drawing.Unambiguous
import LitmusGraph.Proofs.Execution.EdgeCounts

/-!
# Relations of one name are as good as one relation

An evaluator may send a relation in parts. Nothing that is drawn or counted tells the parts from the
whole: a drawing shows what is found under the names of its draw list, and that is what the parts hold
together. So whatever else an execution says besides its events can change without a trace in the
drawing: sets, names to show, relations that are not drawn, and the order of those that are.

Results:
* `edgesNamed_merged`: what is found in an execution whose relations are merged.
* `drawnEdges_eq_flatMap`: the edges that are drawn are those found under the names drawn.
* `render_eq_of_edgesNamed`: **a drawing shows events and what is found under the names drawn**, and
  nothing else.
* `sameNamed_relations_act_as_one`: the parts of a relation are as good as the whole.
-/

namespace LitmusGraph

namespace Execution

/-- The execution with all relations of a name made one, which stands where the first of them
stood. -/
def merged (x : Execution) : Execution :=
  { x with relations := x.names.eraseDups.map fun name => { name, edges := x.edgesNamed name } }

/-! ## What is found in a merged execution -/

theorem names_merged (x : Execution) : x.merged.names = x.names.eraseDups := by
  simp [names, merged, Function.comp_def]

theorem relationsNamed_merged (x : Execution) (name : Text) :
    x.merged.relationsNamed name =
      if name ∈ x.names then [{ name, edges := x.edgesNamed name }] else [] := by
  have hfilter : x.names.eraseDups.filter (· = name) = if name ∈ x.names then [name] else [] := by
    rw [List.filter_eq]
    split
    · next h => rw [List.count_eq_one_of_mem (nodup_eraseDups _) (List.mem_eraseDups.mpr h)]; rfl
    · next h => rw [List.count_eq_zero.mpr (mt List.mem_eraseDups.mp h)]; rfl
  have hmap : x.merged.relationsNamed name = (x.names.eraseDups.filter (· = name)).map fun name =>
      { name, edges := x.edgesNamed name } := by
    unfold relationsNamed merged
    rw [List.filter_map]
    rfl
  rw [hmap, hfilter]
  split <;> rfl

/-- **What is found stays.** -/
theorem edgesNamed_merged (x : Execution) (name : Text) :
    x.merged.edgesNamed name = x.edgesNamed name := by
  rw [edgesNamed, relationsNamed_merged]
  split
  · simp
  · next h => rw [edgesNamed_eq_nil h, List.flatMap_nil]

/-! ## What is drawn -/

/-- The edges that are drawn are those found under the names drawn. -/
theorem drawnEdges_eq_flatMap (x : Execution) (draw : List Text) :
    x.drawnEdges draw = draw.flatMap fun name => (x.edgesNamed name).map (name, ·) := by
  refine List.flatMap_congr fun name _ => ?_
  rw [edgesNamed, List.map_flatMap]
  refine List.flatMap_congr fun r hr => ?_
  rw [of_decide_eq_true (List.mem_filter.mp hr).2]

/-- **A drawing shows the events and what is found under the names drawn**, and nothing else. -/
theorem render_eq_of_edgesNamed {x y : Execution} {draw : List Text} (hevents : x.events = y.events)
    (h : ∀ name ∈ draw, x.edgesNamed name = y.edgesNamed name) : x.render draw = y.render draw := by
  have hof (t : Int) : x.eventsOf t = y.eventsOf t := by rw [eventsOf, hevents, eventsOf]
  refine SamePicture.render_eq ⟨?_, fun t _ => ?_, fun t _ => ?_, ?_⟩
  · rw [threads, hevents, threads]
  · rw [hof]
  · rw [anchorName, hof, anchorName]
  · rw [drawnEdges_eq_flatMap, drawnEdges_eq_flatMap]
    exact List.flatMap_congr fun name hname => by rw [h name hname]

/-- **Relations of one name act as one**: with those of each name made one, where the first of them
stood, an execution has the same drawing for every draw list, and the same counts in the same order.
Beyond that, two executions with the same events have the same drawing if the same edges in the same
order are found under each name of the draw list, whatever else they hold. -/
theorem sameNamed_relations_act_as_one (x : Execution) :
    (∀ draw, x.merged.render draw = x.render draw) ∧
      x.merged.edgeCounts = x.edgeCounts ∧
      ∀ (y : Execution) (draw : List Text), x.events = y.events →
        (∀ name ∈ draw, (x.relationsNamed name).flatMap Relation.edges =
          (y.relationsNamed name).flatMap Relation.edges) →
        x.render draw = y.render draw := by
  refine ⟨fun draw => ?_, ?_, fun y draw => render_eq_of_edgesNamed⟩
  · exact render_eq_of_edgesNamed rfl fun name _ => x.edgesNamed_merged name
  · refine edgeCounts_eq_of_edgesNamed ?_ x.edgesNamed_merged
    rw [names_merged, eraseDups_eq_self (nodup_eraseDups _)]

/-- An execution whose relations come in parts, one of them empty, with sets and names to show. -/
def scattered : Execution where
  events := [{ instr := none, opcode := "R", po := 0, thread := 0, name := "a", value := none }]
  sets := [{ name := "R", elems := ["a"] }]
  relations :=
    [{ name := "rf", edges := [{ source := "IW", target := "a" }] },
      { name := "co", edges := [{ source := "IW", target := "\n" }] }, { name := "rf", edges := [] },
      { name := "rf", edges := [{ source := "a", target := "a" }, { source := "IW", target := "a" }] }]
  shown := ["co"]

/-- The same events, and the same edges under one of the names. -/
def gathered : Execution where
  events := scattered.events
  sets := []
  relations :=
    [{ name := "fr", edges := [{ source := "a", target := "b" }] },
      { name := "rf"
        edges := [{ source := "IW", target := "a" }, { source := "a", target := "a" },
          { source := "IW", target := "a" }] }]
  shown := []

theorem scattered_acts_as_gathered :
    scattered.render ["rf", "addr", "rf"] = gathered.render ["rf", "addr", "rf"] ∧
      scattered.merged.render ["co", "rf"] = scattered.render ["co", "rf"] ∧
      scattered.merged.relations.map (·.edges.length) = [3, 1] ∧
      scattered.merged.edgeCounts = ([("rf", 3), ("co", 1)] : Table Nat) := by
  obtain ⟨hrender, hcounts, hother⟩ := sameNamed_relations_act_as_one scattered
  refine ⟨hother gathered _ rfl (by decide), hrender _, by decide, hcounts.trans (by decide)⟩

end Execution

end LitmusGraph
