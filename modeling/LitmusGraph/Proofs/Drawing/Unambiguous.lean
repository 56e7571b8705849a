import LitmusGraph.Proofs.Drawing.Reading
import LitmusGraph.Proofs.Execution.Earliest
import Mathlib.Data.List.Basic

/-!
# The text of a drawing tells the picture

A picture is what a drawing shows: the threads in order, the events of each with their names, labels
and values, the event that each thread hangs from, and the edges with the names of their relations.
`Execution.Legible` says when the texts of a picture can be told from what stands around them. Then
the text is read back into its statements (`Statement.ofText_unlines`), and the statements fall into
the boxes of the threads and the edges in one way only.

Results:
* `drawnFrom_of_mem_drawing`: what a drawing is made of.
* `Legible.drawing`: a legible execution is drawn with legible statements.
* `threadBlock_append_inj`: where the block of a thread ends can be seen.
* `SamePicture.render_eq`: the text depends on nothing but the picture.
* `render_eq_iff_samePicture`: legible executions with the same text have the same picture.
-/

namespace LitmusGraph

namespace Event

/-- What is drawn of an event: its name, its label and its value unless that is empty. -/
def shown (e : Event) : Text × Text × Option Text := (e.name, e.label, e.value.filter (!·.isEmpty))

theorem shown_eq_of_ofEvent_eq {e f : Event} (h : Statement.ofEvent e = Statement.ofEvent f) :
    e.shown = f.shown := by
  unfold Statement.ofEvent at h
  obtain ⟨hname, hlabel, hvalue⟩ := Statement.node.inj h
  unfold shown
  rw [hname, hlabel, hvalue]

end Event

namespace Execution

/-- The edges that are drawn, with the names of their relations: the draw list in order, under each
name the relations in order, and of each relation the edges in order. -/
def drawnEdges (x : Execution) (draw : List Text) : List (Text × Edge) :=
  draw.flatMap fun name => (x.relationsNamed name).flatMap fun r => r.edges.map (r.name, ·)

/-- The texts of a picture can be told from what stands around them: nodes are tokens, labels hold no
backslash, and nothing holds a line feed. -/
structure Legible (x : Execution) (draw : List Text) : Prop where
  names : ∀ e ∈ x.events, e.name.IsToken
  labels : ∀ e ∈ x.events, ('\n' : CodePoint) ∉ e.label ∧ ('\\' : CodePoint) ∉ e.label
  values : ∀ e ∈ x.events, ∀ v ∈ e.value, ('\n' : CodePoint) ∉ v
  relations : ∀ a ∈ x.drawnEdges draw, ('\n' : CodePoint) ∉ a.1
  ends : ∀ a ∈ x.drawnEdges draw, a.2.source.IsToken ∧ a.2.target.IsToken

theorem drawnArrows_eq_map (x : Execution) (draw : List Text) :
    x.drawnArrows draw =
      (x.drawnEdges draw).map fun a => Statement.arrow a.1 a.2.source a.2.target := by
  simp only [drawnArrows, drawnEdges, List.map_flatMap, List.map_map]
  rfl

theorem mem_of_mem_eventsOf {x : Execution} {thread : Int} {e : Event} (h : e ∈ x.eventsOf thread) :
    e ∈ x.events := (List.mem_filter.mp h).1

/-! ## What a drawing is made of -/

/-- The statements that an execution can be drawn with: those of the graph, those of the box of a
thread, those of an event, and the edges that are drawn. -/
inductive DrawnFrom (x : Execution) (draw : List Text) : Statement → Prop
  | openGraph : DrawnFrom x draw .openGraph
  | initial : DrawnFrom x draw .initial
  | openCluster {t : Int} (h : t ∈ x.threads) : DrawnFrom x draw (.openCluster t)
  | clusterLabel {t : Int} (h : t ∈ x.threads) : DrawnFrom x draw (.clusterLabel t)
  | clusterStyle : DrawnFrom x draw .clusterStyle
  | clusterColor : DrawnFrom x draw .clusterColor
  | event {e : Event} (h : e ∈ x.events) : DrawnFrom x draw (.ofEvent e)
  | chain (t : Int) : DrawnFrom x draw (.chain ((x.eventsOf t).map Event.name))
  | closeCluster : DrawnFrom x draw .closeCluster
  | anchor {e : Event} (h : e ∈ x.events) : DrawnFrom x draw (.anchor e.name)
  | arrow {a : Text × Edge} (h : a ∈ x.drawnEdges draw) :
    DrawnFrom x draw (.arrow a.1 a.2.source a.2.target)
  | closeGraph : DrawnFrom x draw .closeGraph

theorem drawnFrom_of_mem_threadBlock {x : Execution} {draw : List Text} {t : Int}
    (ht : t ∈ x.threads) {s : Statement} (hs : s ∈ x.threadBlock t) : x.DrawnFrom draw s := by
  unfold threadBlock cluster at hs
  simp only [List.mem_append, List.mem_cons, List.not_mem_nil, or_false, or_assoc] at hs
  rcases hs with rfl | rfl | rfl | rfl | hs | rfl | rfl | hs
  · exact .openCluster ht
  · exact .clusterLabel ht
  · exact .clusterStyle
  · exact .clusterColor
  · obtain ⟨e, he, rfl⟩ := List.mem_map.mp hs
    exact .event (mem_of_mem_eventsOf he)
  · exact .chain t
  · exact .closeCluster
  · obtain ⟨e, he, rfl⟩ := List.mem_map.mp hs
    exact .anchor (mem_of_mem_eventsOf (Event.mem_of_earliest? (Option.mem_toList.mp he)))

/-- **What a drawing is made of.** -/
theorem drawnFrom_of_mem_drawing {x : Execution} {draw : List Text} {s : Statement}
    (hs : s ∈ x.drawing draw) : x.DrawnFrom draw s := by
  unfold drawing at hs
  rw [drawnArrows_eq_map] at hs
  simp only [List.mem_append, List.mem_cons, List.not_mem_nil, or_false, or_assoc] at hs
  rcases hs with rfl | rfl | hs | hs | rfl
  · exact .openGraph
  · exact .initial
  · obtain ⟨t, ht, hs⟩ := List.mem_flatMap.mp hs
    exact drawnFrom_of_mem_threadBlock ht hs
  · obtain ⟨a, ha, rfl⟩ := List.mem_map.mp hs
    exact .arrow ha
  · exact .closeGraph

/-! ## The statements of a legible execution -/

section Legible

variable {x : Execution} {draw : List Text}

theorem Legible.ofEvent (h : x.Legible draw) {e : Event} (he : e ∈ x.events) :
    (Statement.ofEvent e).Legible := by
  refine ⟨h.names e he, (h.labels e he).1, (h.labels e he).2, fun v hv => ?_⟩
  exact h.values e he v (Option.mem_filter_iff.mp hv).1

/-- **A legible execution is drawn with legible statements.** -/
theorem Legible.drawing (h : x.Legible draw) : ∀ s ∈ x.drawing draw, s.Legible := by
  intro s hs
  cases drawnFrom_of_mem_drawing hs with
  | event he => exact h.ofEvent he
  | chain t =>
    intro name hname
    obtain ⟨e, he, rfl⟩ := List.mem_map.mp hname
    exact h.names e (mem_of_mem_eventsOf he)
  | anchor he => exact h.names _ he
  | arrow ha => exact ⟨h.relations _ ha, h.ends _ ha⟩
  | _ => exact trivial

/-- The statements of a legible execution are read back from its text. -/
theorem Legible.ofText_render (h : x.Legible draw) :
    Statement.ofText (x.render draw) = x.drawing draw := by
  rw [render_eq_unlines, Statement.ofText_unlines h.drawing]

end Legible

/-! ## The parts of a drawing -/

/-- The name of the event that a thread hangs from. -/
def anchorName (x : Execution) (thread : Int) : Option Text :=
  (Event.earliest? (x.eventsOf thread)).map Event.name

theorem anchor_eq_map (x : Execution) (thread : Int) :
    anchor (x.eventsOf thread) = (x.anchorName thread).toList.map Statement.anchor := by
  unfold anchor anchorName
  cases Event.earliest? (x.eventsOf thread) <;> rfl

/-- Two lists that go on behind a run of one kind have the same run and go on in the same way. -/
theorem run_append_inj {α : Type} {p : α → Bool} {l m : List α} {a b : α} {r s : List α}
    (hl : ∀ c ∈ l, p c = true) (hm : ∀ c ∈ m, p c = true) (ha : ¬ p a = true) (hb : ¬ p b = true)
    (h : l ++ a :: r = m ++ b :: s) : l = m ∧ a :: r = b :: s := by
  have hrun := congrArg (List.takeWhile p) h
  rw [List.takeWhile_append_of_pos hl, List.takeWhile_append_of_pos hm,
    List.takeWhile_cons_of_neg ha, List.takeWhile_cons_of_neg hb, List.append_nil,
    List.append_nil] at hrun
  subst hrun
  exact ⟨rfl, List.append_cancel_left h⟩

/-- The nodes of events. -/
def isNode : Statement → Bool
  | .node _ _ _ => true
  | _ => false

theorem isNode_of_mem_map {events : List Event} :
    ∀ s ∈ events.map Statement.ofEvent, isNode s = true := by
  intro s hs
  obtain ⟨e, -, rfl⟩ := List.mem_map.mp hs
  rfl

theorem map_shown_eq_of_map_ofEvent_eq : ∀ {es fs : List Event},
    es.map Statement.ofEvent = fs.map Statement.ofEvent → es.map Event.shown = fs.map Event.shown
  | [], [], _ => rfl
  | e :: es, f :: fs, h => by
    obtain ⟨hhead, htail⟩ := List.cons.inj h
    rw [List.map_cons, List.map_cons, Event.shown_eq_of_ofEvent_eq hhead,
      map_shown_eq_of_map_ofEvent_eq htail]

variable {x y : Execution}

/-- **Where the block of a thread ends can be seen**: the nodes end at the chain, and there is an
anchor just when there are nodes. -/
theorem threadBlock_append_inj {t u : Int} {r s : List Statement}
    (h : x.threadBlock t ++ r = y.threadBlock u ++ s) :
    t = u ∧ (x.eventsOf t).map Event.shown = (y.eventsOf u).map Event.shown ∧
      x.anchorName t = y.anchorName u ∧ r = s := by
  simp only [threadBlock, cluster, List.append_assoc, List.cons_append, List.nil_append,
    List.cons.injEq, true_and] at h
  obtain ⟨hthread, -, h⟩ := h
  obtain ⟨hnodes, h⟩ := run_append_inj (p := isNode) isNode_of_mem_map isNode_of_mem_map
    (by exact Bool.false_ne_true) (by exact Bool.false_ne_true) h
  have h : anchor (x.eventsOf t) ++ r = anchor (y.eventsOf u) ++ s :=
    (List.cons.inj (List.cons.inj h).2).2
  have hnil : x.eventsOf t = [] ↔ y.eventsOf u = [] := by
    rw [← List.map_eq_nil_iff (f := Statement.ofEvent), hnodes, List.map_eq_nil_iff]
  have hshown := map_shown_eq_of_map_ofEvent_eq hnodes
  rw [anchor_eq_map, anchor_eq_map] at h
  refine ⟨Statement.openCluster.inj hthread, hshown, ?_⟩
  cases hx : x.anchorName t with
  | none =>
    have hy : y.anchorName u = none := by
      rw [anchorName, Option.map_eq_none_iff, Event.earliest?_eq_none_iff] at hx ⊢
      exact hnil.mp hx
    rw [hx, hy] at h
    exact ⟨hy.symm, h⟩
  | some a =>
    cases hy : y.anchorName u with
    | none =>
      rw [anchorName, Option.map_eq_none_iff, Event.earliest?_eq_none_iff] at hy
      rw [anchorName, hnil.mpr hy] at hx
      exact nomatch hx
    | some b =>
      rw [hx, hy] at h
      obtain ⟨hab, hrs⟩ := List.cons.inj h
      rw [Statement.anchor.inj hab]
      exact ⟨rfl, hrs⟩

/-- A list of statements that opens no box with its first one. -/
def OpensNoBox (ss : List Statement) : Prop := ∀ t, ss.head? ≠ some (.openCluster t)

/-- The blocks of all threads are told apart, and from what follows them. -/
theorem flatMap_threadBlock_append_inj : ∀ {ts us : List Int} {r s : List Statement},
    OpensNoBox r → OpensNoBox s → ts.flatMap x.threadBlock ++ r = us.flatMap y.threadBlock ++ s →
    ts = us ∧ (∀ t ∈ ts, (x.eventsOf t).map Event.shown = (y.eventsOf t).map Event.shown ∧
      x.anchorName t = y.anchorName t) ∧ r = s
  | [], [], _, _, _, _, h => ⟨rfl, fun _ ht => absurd ht List.not_mem_nil, h⟩
  | [], u :: us, r, s, hr, _, h => by
    have hhead : r.head? = some (.openCluster u) := congrArg List.head? h
    exact absurd hhead (hr u)
  | t :: ts, [], r, s, _, hs, h => by
    have hhead : s.head? = some (.openCluster t) := congrArg List.head? h.symm
    exact absurd hhead (hs t)
  | t :: ts, u :: us, r, s, hr, hs, h => by
    rw [List.flatMap_cons, List.flatMap_cons, List.append_assoc, List.append_assoc] at h
    obtain ⟨rfl, hshown, hanchor, h⟩ := threadBlock_append_inj h
    obtain ⟨rfl, hrest, hrs⟩ := flatMap_threadBlock_append_inj hr hs h
    refine ⟨rfl, fun v hv => ?_, hrs⟩
    rcases List.mem_cons.mp hv with rfl | hv
    · exact ⟨hshown, hanchor⟩
    · exact hrest v hv

theorem opensNoBox_drawnArrows (x : Execution) (draw : List Text) :
    OpensNoBox (x.drawnArrows draw ++ [.closeGraph]) := by
  intro t
  rw [drawnArrows_eq_map]
  cases x.drawnEdges draw with
  | nil => exact fun h => nomatch h
  | cons a rest => exact fun h => nomatch h

theorem arrow_injective : Function.Injective fun a : Text × Edge =>
    Statement.arrow a.1 a.2.source a.2.target := by
  rintro ⟨n, s, t⟩ ⟨n', s', t'⟩ h
  obtain ⟨rfl, rfl, rfl⟩ := Statement.arrow.inj h
  rfl

/-! ## Pictures -/

/-- Two drawings show the same picture: the same threads in the same order, in each thread the same
names, labels and values in the same order and the same event to hang from, and the same edges with
the same relation names in the same order. -/
structure SamePicture (x : Execution) (d : List Text) (y : Execution) (e : List Text) : Prop where
  threads : x.threads = y.threads
  events : ∀ t ∈ x.threads, (x.eventsOf t).map Event.shown = (y.eventsOf t).map Event.shown
  anchors : ∀ t ∈ x.threads, x.anchorName t = y.anchorName t
  edges : x.drawnEdges d = y.drawnEdges e

theorem cluster_eq_of_map_shown_eq (t : Int) {es fs : List Event}
    (h : es.map Event.shown = fs.map Event.shown) : cluster t es = cluster t fs := by
  have hnames : es.map Event.name = fs.map Event.name := by
    have := congrArg (List.map Prod.fst) h
    rwa [List.map_map, List.map_map] at this
  have hnodes : es.map Statement.ofEvent = fs.map Statement.ofEvent := by
    have := congrArg (List.map fun s : Text × Text × Option Text => Statement.node s.1 s.2.1 s.2.2) h
    rwa [List.map_map, List.map_map] at this
  unfold cluster
  rw [hnames, hnodes]

/-- Drawings with the same picture have the same text. -/
theorem SamePicture.render_eq {d e : List Text} (h : SamePicture x d y e) :
    x.render d = y.render e := by
  have hblocks : x.threads.flatMap x.threadBlock = y.threads.flatMap y.threadBlock := by
    rw [← h.threads]
    refine List.flatMap_congr fun t ht => ?_
    unfold threadBlock
    rw [cluster_eq_of_map_shown_eq t (h.events t ht), anchor_eq_map, anchor_eq_map, h.anchors t ht]
  unfold render drawing
  rw [hblocks, drawnArrows_eq_map, drawnArrows_eq_map, h.edges]

/-- **The text of a drawing tells the picture**: legible executions have the same text just when they
have the same picture. -/
theorem render_eq_iff_samePicture {d e : List Text} (hx : x.Legible d) (hy : y.Legible e) :
    x.render d = y.render e ↔ SamePicture x d y e := by
  refine ⟨fun h => ?_, SamePicture.render_eq⟩
  have hdrawing : x.drawing d = y.drawing e := by
    rw [← hx.ofText_render, ← hy.ofText_render, h]
  simp only [drawing, List.append_assoc, List.cons_append, List.nil_append, List.cons.injEq,
    true_and] at hdrawing
  obtain ⟨hthreads, hblocks, harrows⟩ := flatMap_threadBlock_append_inj
    (opensNoBox_drawnArrows x d) (opensNoBox_drawnArrows y e) hdrawing
  have harrows := List.append_cancel_right harrows
  rw [drawnArrows_eq_map, drawnArrows_eq_map] at harrows
  exact ⟨hthreads, fun t ht => (hblocks t ht).1, fun t ht => (hblocks t ht).2,
    (List.map_inj_right fun _ _ h => arrow_injective h).mp harrows⟩

/-- A thread with an empty value, and the relation `rf` in two parts. -/
def splitReads : Execution where
  events :=
    [{ instr := none, opcode := "0x1", po := 1, thread := -7, name := "b", value := some [] },
      { instr := some "mov", opcode := "0x2", po := 0, thread := -7, name := "a", value := some "a\\l5" }]
  sets := []
  relations :=
    [{ name := "rf", edges := [{ source := "a", target := "b" }] },
      { name := "po", edges := [{ source := "a", target := "\n" }] },
      { name := "rf", edges := [{ source := "IW", target := "a" }] }]
  shown := []

/-- The same picture from other data: no value, one relation `rf`, no other one. -/
def joinedReads : Execution where
  events :=
    [{ instr := some [], opcode := "0x1", po := 5, thread := -7, name := "b", value := none },
      { instr := some "mov", opcode := "", po := 4, thread := -7, name := "a", value := some "a\\l5" }]
  sets := [{ name := "R", elems := ["b"] }]
  relations :=
    [{ name := "rf", edges := [{ source := "a", target := "b" }, { source := "IW", target := "a" }] }]
  shown := ["rf"]

theorem splitReads_samePicture_joinedReads :
    splitReads.Legible ["rf"] ∧ joinedReads.Legible ["co", "rf"] ∧
      splitReads.render ["rf"] = joinedReads.render ["co", "rf"] ∧
      SamePicture splitReads ["rf"] joinedReads ["co", "rf"] := by
  have hx : splitReads.Legible ["rf"] := ⟨by decide, by decide, by decide, by decide, by decide⟩
  have hy : joinedReads.Legible ["co", "rf"] := ⟨by decide, by decide, by decide, by decide, by decide⟩
  have h : splitReads.render ["rf"] = joinedReads.render ["co", "rf"] := by rfl
  exact ⟨hx, hy, h, (render_eq_iff_samePicture hx hy).mp h⟩

end Execution

end LitmusGraph
