import LitmusGraph.Payload.Reader
import LitmusGraph.Proofs.Drawing.Tokens
import LitmusGraph.Proofs.Drawing.Unambiguous
import LitmusGraph.Proofs.Execution.Threads
import Mathlib.Data.List.Forall2

/-!
# When the text of a drawing is well-formed DOT

`Execution.WellNamed` says that the texts of an execution fit where they are put: nodes are
identifiers, and what stands between quotes holds no quote, backslash or line feed. Then the text of a
drawing is a sentence of the grammar, its braces balance, and every quoted string is closed on its own
line. Its identifiers are a matter of the threads: the box of a thread is named after the number of
the thread, and a minus sign is no part of an identifier.

Results:
* `tokens_drawing`: the tokens of a drawing are a sentence of the grammar.
* `isIdentifier_cluster_iff`: the box of a thread has an identifier unless its number is negative.
* `wellFormed_render_iff`: when the text of a well-named execution is well-formed.
* `negativeThread_not_wellFormed`: a payload whose drawing is not.
-/

namespace LitmusGraph

namespace Dot

/-- The lines of a text have these tokens. -/
def IsReadAs (t : Text) (lines : List (List Token)) : Prop :=
  t = Text.unlines t.lines ∧ List.Forall₂ (fun line tokens => lex line = some tokens) t.lines lines

/-- A text is read in one way. -/
theorem IsReadAs.unique {t : Text} {lines lines' : List (List Token)} (h : IsReadAs t lines)
    (h' : IsReadAs t lines') : lines = lines' :=
  List.right_unique_forall₂' (fun _ _ _ hl hl' => Option.some.inj (hl.symm.trans hl')) h.2 h'.2

/-- A text is a sentence of the grammar, with balanced braces and with identifiers for the graph, the
boxes and the nodes. -/
def WellFormed (t : Text) : Prop :=
  ∃ boxes arrows, IsReadAs t (sentence boxes arrows) ∧ Balanced (sentence boxes arrows).flatten ∧
    ∀ name ∈ (sentence boxes arrows).flatMap identifiers, name.IsIdentifier

/-- The box of a thread has an identifier unless the number of the thread is negative. -/
theorem isIdentifier_cluster_iff (thread : Int) :
    (("cluster" : Text) ++ Text.ofInt thread).IsIdentifier ↔ 0 ≤ thread := by
  have hhead : ∀ c ∈ (("cluster" : Text) ++ Text.ofInt thread).head?, c.isDigit = false := by
    intro c hc
    obtain rfl : ('c' : CodePoint) = c := Option.some.inj hc
    decide
  constructor
  · intro h
    cases thread with
    | ofNat n => exact Int.natCast_nonneg n
    | negSucc n =>
      have hminus := h.1.2 '-' (List.mem_append_right _ List.mem_cons_self)
      exact absurd hminus (by decide)
  · intro h
    refine ⟨⟨List.append_ne_nil_of_left_ne_nil (by decide) _, fun c hc => ?_⟩, hhead⟩
    rcases List.mem_append.mp hc with hc | hc
    · exact (by decide : ∀ c ∈ ("cluster" : Text), c.isWord = true) c hc
    · cases thread with
      | negSucc n => exact absurd h (by omega)
      | ofNat n =>
        unfold CodePoint.isWord
        rw [Text.isDigit_of_mem_ofNat hc]
        rfl

end Dot

/-! ## Drawings -/

namespace Execution

open Dot

/-- The texts of an execution fit where they are put. -/
structure WellNamed (x : Execution) (draw : List Text) : Prop where
  names : ∀ e ∈ x.events, e.name.IsIdentifier
  labels : ∀ e ∈ x.events, e.label.IsQuotable
  values : ∀ e ∈ x.events, ∀ v ∈ e.value, v.IsQuotable
  relations : ∀ a ∈ x.drawnEdges draw, a.1.IsQuotable
  ends : ∀ a ∈ x.drawnEdges draw, a.2.source.IsIdentifier ∧ a.2.target.IsIdentifier

/-- What the grammar leaves open of the box of a thread. -/
def dotBox (x : Execution) (thread : Int) : Dot.Box where
  thread := Text.ofInt thread
  nodes := (x.eventsOf thread).map fun e =>
    (e.name, Statement.labelText e.label (e.value.filter (!·.isEmpty)))
  anchor := (x.anchorName thread).getD []

/-- What the grammar leaves open of an edge. -/
def dotArrow (a : Text × Edge) : Dot.Arrow :=
  let style := EdgeStyle.ofRelation a.1
  { source := a.2.source, target := a.2.target, color := style.color, relation := a.1
    constrained := !style.extra.isEmpty }

variable {x : Execution} {draw : List Text}

theorem WellNamed.drawing (h : x.WellNamed draw) : ∀ s ∈ x.drawing draw, s.Quotable := by
  intro s hs
  cases drawnFrom_of_mem_drawing hs with
  | @event e he =>
    exact ⟨(h.names e he).1, h.labels e he, fun v hv => h.values e he v (Option.mem_filter_iff.mp hv).1⟩
  | chain t =>
    intro name hname
    obtain ⟨e, he, rfl⟩ := List.mem_map.mp hname
    exact (h.names e (mem_of_mem_eventsOf he)).1
  | anchor he => exact (h.names _ he).1
  | arrow ha => exact ⟨h.relations _ ha, (h.ends _ ha).1.1, (h.ends _ ha).2.1⟩
  | _ => exact trivial

/-- A thread hangs from one of its events. -/
theorem exists_anchorName {t : Int} (ht : t ∈ x.threads) :
    ∃ e ∈ x.eventsOf t, x.anchorName t = some e.name := by
  have hsome : Event.earliest? (x.eventsOf t) ≠ none := fun hnone =>
    x.partitionedByThreads.nonempty t ht (Event.earliest?_eq_none_iff.mp hnone)
  obtain ⟨e, he⟩ := Option.ne_none_iff_exists'.mp hsome
  exact ⟨e, Event.mem_of_earliest? he, congrArg (Option.map Event.name) he⟩

/-- The block of a thread is a box of the grammar. -/
theorem tokens_threadBlock {t : Int} (ht : t ∈ x.threads) :
    (x.threadBlock t).map Statement.tokens = (x.dotBox t).lines := by
  obtain ⟨e, -, hanchor⟩ := exists_anchorName ht
  have hbox : x.threadBlock t = cluster t (x.eventsOf t) ++ [.anchor e.name] := by
    unfold threadBlock
    rw [anchor_eq_map, hanchor]
    rfl
  have hname : (x.dotBox t).anchor = e.name := by
    unfold dotBox
    simp only
    rw [hanchor]
    rfl
  rw [hbox]
  unfold Box.lines Box.inner
  rw [hname]
  unfold cluster dotBox
  simp only [List.map_append, List.map_cons, List.map_nil, List.map_map, List.cons_append,
    List.nil_append, List.append_assoc]
  rfl

/-- **The tokens of a drawing are a sentence of the grammar.** -/
theorem tokens_drawing (x : Execution) (draw : List Text) :
    (x.drawing draw).map Statement.tokens =
      sentence (x.threads.map x.dotBox) ((x.drawnEdges draw).map dotArrow) := by
  have hblocks : (x.threads.flatMap x.threadBlock).map Statement.tokens =
      (x.threads.map x.dotBox).flatMap Box.lines := by
    rw [List.map_flatMap, List.flatMap_map]
    exact List.flatMap_congr fun t ht => tokens_threadBlock ht
  have harrows : (x.drawnArrows draw).map Statement.tokens =
      ((x.drawnEdges draw).map dotArrow).map Arrow.line := by
    rw [drawnArrows_eq_map, List.map_map, List.map_map]
    rfl
  unfold drawing sentence
  rw [List.map_append, List.map_append, List.map_append, hblocks, harrows]
  rfl

/-- The text of a well-named execution is read as a sentence. -/
theorem WellNamed.isReadAs_render (h : x.WellNamed draw) :
    IsReadAs (x.render draw) (sentence (x.threads.map x.dotBox) ((x.drawnEdges draw).map dotArrow)) := by
  have hlines : (x.render draw).lines = (x.drawing draw).map Statement.toText := by
    rw [render_eq_unlines, Statement.lines_unlines_map_toText fun s hs =>
      (h.drawing s hs).legible.oneLine]
  unfold IsReadAs
  rw [hlines, ← tokens_drawing, List.forall₂_map_left_iff, List.forall₂_map_right_iff,
    List.forall₂_same]
  exact ⟨render_eq_unlines x draw, fun s hs => Statement.lex_toText (h.drawing s hs)⟩

theorem map_fst_nodes_dotBox (x : Execution) (t : Int) :
    (x.dotBox t).nodes.map Prod.fst = (x.eventsOf t).map Event.name := by
  unfold dotBox
  simp only [List.map_map]
  rfl

/-- The box of a thread of a well-named execution has identifiers unless its number is negative. -/
theorem WellNamed.isIdentifier_of_mem_dotBox (h : x.WellNamed draw) {t : Int} (ht : t ∈ x.threads)
    (hnumber : 0 ≤ t) : ∀ name ∈ (x.dotBox t).identifiers, name.IsIdentifier := by
  have hnames : ∀ name ∈ (x.eventsOf t).map Event.name, name.IsIdentifier := by
    intro name hname
    obtain ⟨e, he, rfl⟩ := List.mem_map.mp hname
    exact h.names e (mem_of_mem_eventsOf he)
  intro name hname
  unfold Box.identifiers at hname
  rw [map_fst_nodes_dotBox] at hname
  simp only [List.mem_cons, List.mem_append, List.not_mem_nil, or_false] at hname
  rcases hname with rfl | hname | hname | rfl | rfl
  · exact (isIdentifier_cluster_iff t).mpr hnumber
  · exact hnames name hname
  · exact hnames name hname
  · decide
  · obtain ⟨e, he, hanchor⟩ := exists_anchorName ht
    show ((x.anchorName t).getD []).IsIdentifier
    rw [hanchor]
    exact h.names e (mem_of_mem_eventsOf he)

/-- The identifiers of a well-named execution are identifiers if those of the boxes are. -/
theorem WellNamed.forall_identifiers_iff (h : x.WellNamed draw) :
    (∀ name ∈ (sentence (x.threads.map x.dotBox) ((x.drawnEdges draw).map dotArrow)).flatMap
      identifiers, name.IsIdentifier) ↔ ∀ t ∈ x.threads, 0 ≤ t := by
  rw [identifiers_sentence]
  constructor
  · intro hall t ht
    refine (isIdentifier_cluster_iff t).mp (hall _ ?_)
    refine List.mem_append_left _ (List.mem_append_right _ (List.mem_flatMap.mpr ?_))
    exact ⟨x.dotBox t, List.mem_map_of_mem ht, List.mem_cons_self⟩
  · intro hnumbers name hname
    rcases List.mem_append.mp hname with hname | hname
    · rcases List.mem_append.mp hname with hname | hname
      · exact (by decide : ∀ name ∈ [("Exec" : Text), "IW"], name.IsIdentifier) name hname
      · obtain ⟨b, hb, hname⟩ := List.mem_flatMap.mp hname
        obtain ⟨t, ht, rfl⟩ := List.mem_map.mp hb
        exact h.isIdentifier_of_mem_dotBox ht (hnumbers t ht) name hname
    · obtain ⟨b, hb, hname⟩ := List.mem_flatMap.mp hname
      obtain ⟨a, ha, rfl⟩ := List.mem_map.mp hb
      have hends := h.ends a ha
      simp only [List.mem_cons, List.not_mem_nil, or_false] at hname
      rcases hname with rfl | rfl
      · exact hends.1
      · exact hends.2

/-- **The text of a well-named execution is a sentence of the grammar**, with balanced braces and every
quoted string closed on its own line. It is well-formed DOT just when no thread has a negative number.
So a well-formed text is returned just when the numbers of the threads are neither negative nor too
long to be written. -/
theorem wellFormed_render_iff (h : x.WellNamed draw) :
    (∃ boxes arrows, IsReadAs (x.render draw) (sentence boxes arrows) ∧
      Balanced (sentence boxes arrows).flatten) ∧
    (WellFormed (x.render draw) ↔ ∀ t ∈ x.threads, 0 ≤ t) ∧
    ((∃ dot, x.toDot draw = .ok dot ∧ WellFormed dot) ↔
      ∀ t ∈ x.threads, 0 ≤ t ∧ Text.IsWritable t) := by
  have hread := h.isReadAs_render
  have hwell : WellFormed (x.render draw) ↔ ∀ t ∈ x.threads, 0 ≤ t := by
    refine ⟨?_, fun hnumbers => ?_⟩
    · rintro ⟨boxes, arrows, hread', -, hnames⟩
      rw [hread'.unique hread] at hnames
      exact h.forall_identifiers_iff.mp hnames
    · exact ⟨_, _, hread, balanced_sentence _ _, h.forall_identifiers_iff.mpr hnumbers⟩
  refine ⟨⟨_, _, hread, balanced_sentence _ _⟩, hwell, ?_, fun hnumbers => ?_⟩
  · rintro ⟨dot, hdot, hdotWell⟩
    obtain ⟨hdrawable, rfl⟩ := toDot_eq_ok_iff.mp hdot
    exact fun t ht => ⟨hwell.mp hdotWell t ht, hdrawable t ht⟩
  · exact ⟨_, toDot_eq_ok_iff.mpr ⟨fun t ht => (hnumbers t ht).2, rfl⟩,
      hwell.mpr fun t ht => (hnumbers t ht).1⟩

/-- A payload with an event on the thread -1. -/
def negativePayload : Json :=
  .array [.object [("events", .array [.object [("opcode", .string "0x1"), ("po", .int 0),
    ("thread_id", .int (-1)), ("name", .string "a")]])]]

/-- The execution in the payload. -/
def negativeThread : Execution where
  events := [{ instr := none, opcode := "0x1", po := 0, thread := -1, name := "a", value := none }]
  sets := []
  relations := []
  shown := []

/-- **A thread with a negative number** is read from a payload, and its box has no identifier. -/
theorem negativeThread_not_wellFormed :
    (Payload.executions negativePayload).toOption = some [negativeThread] ∧
      negativeThread.WellNamed [] ∧ ¬ WellFormed (negativeThread.render []) := by
  have h : negativeThread.WellNamed [] := ⟨by decide, by decide, by decide, by decide, by decide⟩
  refine ⟨by decide +kernel, h, fun hwell => ?_⟩
  exact absurd ((wellFormed_render_iff h).2.1.mp hwell) (by decide)

end Execution

end LitmusGraph
