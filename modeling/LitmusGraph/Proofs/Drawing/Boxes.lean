import LitmusGraph.Proofs.Drawing.Unambiguous
import LitmusGraph.Proofs.Execution.Threads
import LitmusGraph.Proofs.Text.Limit

/-!
# The boxes in the text of a drawing

Nothing is escaped in a drawing, and yet its boxes can be told from its text if nothing drawn holds a
line feed. Only the line that opens the box of a thread reads as one, whatever the names in the other
lines: those end in another code point. And only the line that closes a box can close it: those in it
stand further to the right.

Results:
* `openedBy?_eq_some_iff`: a line opens the box of a thread just when it is written for that.
* `OneLine.boxes_render`: the boxes in the text of a drawing, one for each thread, and their lines.
* `boxes_partition_events`: each event has its node in the box of its thread and in no other one, if
  there is a drawing.
* `hugeThread_not_drawn`: an execution that has none.
-/

namespace LitmusGraph

namespace Statement

/-! ## Lines that open and lines in a box -/

/-- The last code point of a statement. -/
def lastCodePoint : Statement → CodePoint
  | openGraph | openCluster _ => '\x7b'
  | initial | node _ _ _ | chain _ => ';'
  | clusterLabel _ => '"'
  | clusterStyle => 'd'
  | clusterColor => '0'
  | closeCluster | closeGraph => '\x7d'
  | anchor _ | arrow _ _ _ => ']'

theorem getLast?_toText (s : Statement) : s.toText.getLast? = some s.lastCodePoint := by
  have hlast (front back : Text) {c : CodePoint} (h : back.getLast? = some c) :
      (front ++ back).getLast? = some c := by
    rw [List.getLast?_append, h, Option.some_or]
  cases s with
  | openGraph | clusterStyle | clusterColor | closeCluster | closeGraph => rfl
  | initial | openCluster thread | clusterLabel thread | chain names | anchor target =>
    exact hlast _ _ rfl
  | node name label value => cases value <;> exact hlast _ _ rfl
  | arrow relation source target => exact hlast _ _ rfl

/-- **No other statement reads as the opening of a box.** -/
theorem eq_openCluster_of_toText_eq {s : Statement} {t : Int}
    (h : s.toText = (openCluster t).toText) : s = openGraph ∨ ∃ u, s = openCluster u := by
  have hlast : s.lastCodePoint = '\x7b' :=
    Option.some.inj ((getLast?_toText s).symm.trans ((congrArg _ h).trans (getLast?_toText _)))
  cases s with
  | openGraph => exact .inl rfl
  | openCluster u => exact .inr ⟨u, rfl⟩
  | _ => exact absurd hlast (by simp only [lastCodePoint]; decide)

/-- The statements that stand inside a box. -/
def isInBox : Statement → Bool
  | clusterLabel _ | clusterStyle | clusterColor | node _ _ _ | chain _ => true
  | _ => false

/-- What stands inside a box is indented deeper than what closes it. -/
theorem toText_ne_closeCluster {s : Statement} (h : s.isInBox = true) :
    s.toText ≠ closeCluster.toText := by
  have hindent : s.toText[2]? = some (' ' : CodePoint) := by
    cases s with
    | clusterLabel thread | clusterStyle | clusterColor | chain names => rfl
    | node name label value => cases value <;> rfl
    | _ => exact nomatch h
  intro heq
  rw [heq] at hindent
  exact absurd hindent (by decide)

end Statement

/-! ## Reading boxes -/

/-- The thread whose box a line opens, if it opens one. -/
def openedBy? (line : Text) : Option Int :=
  let thread := (Text.between "  subgraph cluster" " \x7b" line).toInt
  if line = (Statement.openCluster thread).toText then some thread else none

/-- **A line opens the box of a thread** just when it is the line that is written for that. -/
theorem openedBy?_eq_some_iff {line : Text} {t : Int} :
    openedBy? line = some t ↔ line = (Statement.openCluster t).toText := by
  constructor
  · intro h
    unfold openedBy? at h
    simp only at h
    split at h
    · next hline => rwa [Option.some.inj h] at hline
    · exact nomatch h
  · rintro rfl
    have hthread : (Text.between "  subgraph cluster" " \x7b"
        (Statement.openCluster t).toText).toInt = t := by
      rw [Statement.toText, List.append_assoc, Text.between_append, Text.toInt_ofInt]
    unfold openedBy?
    simp only
    rw [hthread, if_pos rfl]

/-- A statement that opens no box reads as a line that opens none. -/
theorem openedBy?_toText_eq_none {s : Statement} (h : ∀ t, s ≠ .openCluster t) :
    openedBy? s.toText = none := by
  refine Option.eq_none_iff_forall_ne_some.mpr fun t ht => ?_
  rcases Statement.eq_openCluster_of_toText_eq (openedBy?_eq_some_iff.mp ht) with rfl | ⟨u, rfl⟩
  · -- The line that opens the graph starts with a letter.
    have hhead : some ('d' : CodePoint) = some (' ' : CodePoint) :=
      congrArg List.head? (openedBy?_eq_some_iff.mp ht)
    exact absurd hhead (by decide)
  · exact h u rfl

/-- Statements none of which opens a box read as lines that open none. -/
theorem openedBy?_eq_none_of_mem_map {ss : List Statement} (h : ∀ t, Statement.openCluster t ∉ ss) :
    ∀ l ∈ ss.map Statement.toText, openedBy? l = none := by
  intro l hl
  obtain ⟨s, hs, rfl⟩ := List.mem_map.mp hl
  exact openedBy?_toText_eq_none fun t heq => h t (heq ▸ hs)

/-- The boxes among lines, each with its thread and the lines in it, given the box that is open. -/
def boxesFrom : Option (Int × List Text) → List Text → List (Int × List Text)
  | _, [] => []
  | none, line :: rest => boxesFrom ((openedBy? line).map (·, [])) rest
  | some (thread, inside), line :: rest =>
    if line = Statement.closeCluster.toText then (thread, inside) :: boxesFrom none rest
    else boxesFrom (some (thread, inside ++ [line])) rest

/-- The boxes in a text. -/
def boxes (t : Text) : List (Int × List Text) := boxesFrom none t.lines

/-- The lines for events in a box: they stand between the first three and the last. -/
def nodeLines (box : Int × List Text) : List Text := (box.2.drop 3).dropLast

/-- Outside all boxes, lines that open none change nothing. -/
theorem boxesFrom_none_append {ls : List Text} (h : ∀ l ∈ ls, openedBy? l = none)
    (rest : List Text) : boxesFrom none (ls ++ rest) = boxesFrom none rest := by
  induction ls with
  | nil => rfl
  | cons l ls ih =>
    rw [List.cons_append, boxesFrom, h l List.mem_cons_self]
    exact ih fun m hm => h m (List.mem_cons_of_mem l hm)

/-- A box holds the lines up to the one that closes it. -/
theorem boxesFrom_some_append (t : Int) (inside : List Text) {ls : List Text}
    (h : ∀ l ∈ ls, l ≠ Statement.closeCluster.toText) (rest : List Text) :
    boxesFrom (some (t, inside)) (ls ++ Statement.closeCluster.toText :: rest) =
      (t, inside ++ ls) :: boxesFrom none rest := by
  induction ls generalizing inside with
  | nil => rw [List.nil_append, boxesFrom, if_pos rfl, List.append_nil]
  | cons l ls ih =>
    rw [List.cons_append, boxesFrom, if_neg (h l List.mem_cons_self),
      ih _ fun m hm => h m (List.mem_cons_of_mem l hm), List.append_assoc, List.cons_append,
      List.nil_append]

namespace Execution

/-! ## The boxes of an execution -/

/-- Nothing that is drawn holds a line feed. -/
structure OneLine (x : Execution) (draw : List Text) : Prop where
  names : ∀ e ∈ x.events, ('\n' : CodePoint) ∉ e.name
  labels : ∀ e ∈ x.events, ('\n' : CodePoint) ∉ e.label
  values : ∀ e ∈ x.events, ∀ v ∈ e.value, ('\n' : CodePoint) ∉ v
  relations : ∀ a ∈ x.drawnEdges draw, ('\n' : CodePoint) ∉ a.1
  ends : ∀ a ∈ x.drawnEdges draw, ('\n' : CodePoint) ∉ a.2.source ∧ ('\n' : CodePoint) ∉ a.2.target

/-- The statements in the box of a thread. -/
def boxed (x : Execution) (t : Int) : List Statement :=
  [.clusterLabel t, .clusterStyle, .clusterColor] ++ (x.eventsOf t).map Statement.ofEvent ++
    [.chain ((x.eventsOf t).map Event.name)]

variable {x : Execution} {draw : List Text}

theorem OneLine.drawing (h : x.OneLine draw) : ∀ s ∈ x.drawing draw, s.OneLine := by
  intro s hs
  cases drawnFrom_of_mem_drawing hs with
  | @event e he =>
    refine List.forall_mem_cons.mpr ⟨h.names e he, List.forall_mem_cons.mpr ⟨h.labels e he, ?_⟩⟩
    exact fun v hv => h.values e he v (Option.mem_filter_iff.mp (Option.mem_toList.mp hv)).1
  | chain t =>
    intro name hname
    obtain ⟨e, he, rfl⟩ := List.mem_map.mp hname
    exact h.names e (mem_of_mem_eventsOf he)
  | anchor he => exact List.forall_mem_singleton.mpr (h.names _ he)
  | arrow ha =>
    exact List.forall_mem_cons.mpr ⟨h.relations _ ha, List.forall_mem_cons.mpr ⟨(h.ends _ ha).1,
      List.forall_mem_singleton.mpr (h.ends _ ha).2⟩⟩
  | _ => exact fun t ht => absurd ht List.not_mem_nil

/-- The lines of a drawing are its statements. -/
theorem OneLine.lines_render (h : x.OneLine draw) :
    (x.render draw).lines = (x.drawing draw).map Statement.toText := by
  rw [render_eq_unlines, Statement.lines_unlines_map_toText h.drawing]

theorem threadBlock_eq_boxed (x : Execution) (t : Int) :
    x.threadBlock t =
      .openCluster t :: (x.boxed t ++ .closeCluster :: anchor (x.eventsOf t)) := by
  unfold threadBlock cluster boxed
  simp only [List.append_assoc, List.cons_append, List.nil_append]

theorem isInBox_of_mem_boxed {t : Int} {s : Statement} (hs : s ∈ x.boxed t) : s.isInBox = true := by
  unfold boxed at hs
  simp only [List.mem_append, List.mem_cons, List.not_mem_nil, or_false, List.mem_map] at hs
  rcases hs with ((rfl | rfl | rfl) | ⟨e, -, rfl⟩) | rfl <;> rfl

/-- No line in the box of a thread closes it. -/
theorem ne_closeCluster_of_mem_boxed (x : Execution) (t : Int) :
    ∀ l ∈ (x.boxed t).map Statement.toText, l ≠ Statement.closeCluster.toText := by
  intro l hl
  obtain ⟨s, hs, rfl⟩ := List.mem_map.mp hl
  exact Statement.toText_ne_closeCluster (isInBox_of_mem_boxed hs)

/-- The block of a thread is one box. -/
theorem boxesFrom_threadBlock (x : Execution) (t : Int) (rest : List Text) :
    boxesFrom none ((x.threadBlock t).map Statement.toText ++ rest) =
      (t, (x.boxed t).map Statement.toText) :: boxesFrom none rest := by
  have hanchor : ∀ u, Statement.openCluster u ∉ anchor (x.eventsOf t) := by
    intro u hu
    obtain ⟨e, -, he⟩ := List.mem_map.mp hu
    exact nomatch he
  rw [threadBlock_eq_boxed, List.map_cons, List.map_append, List.map_cons, List.cons_append,
    List.append_assoc, List.cons_append, boxesFrom, openedBy?_eq_some_iff.mpr rfl]
  exact (boxesFrom_some_append t [] (ne_closeCluster_of_mem_boxed x t) _).trans
    (congrArg _ (boxesFrom_none_append (openedBy?_eq_none_of_mem_map hanchor) rest))

/-- The blocks of all threads are their boxes. -/
theorem boxesFrom_flatMap_threadBlock (x : Execution) (ts : List Int) (rest : List Text) :
    boxesFrom none ((ts.flatMap x.threadBlock).map Statement.toText ++ rest) =
      ts.map (fun t => (t, (x.boxed t).map Statement.toText)) ++ boxesFrom none rest := by
  induction ts with
  | nil => rfl
  | cons t ts ih =>
    rw [List.flatMap_cons, List.map_append, List.append_assoc, boxesFrom_threadBlock, ih]
    rfl

/-- In front of the blocks of the threads and behind them, no line opens a box. -/
theorem exists_lines_around_threads (x : Execution) (draw : List Text) : ∃ front back,
    (x.drawing draw).map Statement.toText =
        front ++ ((x.threads.flatMap x.threadBlock).map Statement.toText ++ back) ∧
      (∀ l ∈ front, openedBy? l = none) ∧ ∀ l ∈ back, openedBy? l = none := by
  have hfront : ∀ t, Statement.openCluster t ∉ [Statement.openGraph, .initial] := by simp
  have hback : ∀ t, Statement.openCluster t ∉ x.drawnArrows draw ++ [.closeGraph] := by
    intro t
    rw [drawnArrows_eq_map]
    simp
  refine ⟨_, _, ?_, openedBy?_eq_none_of_mem_map hfront, openedBy?_eq_none_of_mem_map hback⟩
  unfold Execution.drawing
  simp only [List.map_append, List.append_assoc]

/-- **The boxes in the text of a drawing**: one for each thread, in order. -/
theorem OneLine.boxes_render (h : x.OneLine draw) :
    boxes (x.render draw) = x.threads.map fun t => (t, (x.boxed t).map Statement.toText) := by
  obtain ⟨front, back, hdrawing, hfront, hback⟩ := x.exists_lines_around_threads draw
  have hrest := boxesFrom_none_append hback []
  rw [List.append_nil] at hrest
  unfold boxes
  rw [h.lines_render, hdrawing, boxesFrom_none_append hfront, boxesFrom_flatMap_threadBlock, hrest]
  exact List.append_nil _

theorem nodeLines_boxed (x : Execution) (t : Int) :
    nodeLines (t, (x.boxed t).map Statement.toText) =
      (x.eventsOf t).map fun e => (Statement.ofEvent e).toText := by
  unfold nodeLines boxed
  simp only [List.map_append, List.map_cons, List.map_nil, List.cons_append, List.nil_append,
    List.drop_succ_cons, List.drop_zero, List.dropLast_concat, List.map_map]
  rfl

/-- **The threads share out the events, and so do the boxes of a drawing**. There is a drawing just when
the numbers of all threads can be written. If nothing drawn holds a line feed, it has one box for each
thread, in order. A box holds a line for each event of the thread, in the order of the events, and
behind them the chain of the same names. So each event has its line in one box, and as often as it is
among the events. -/
theorem boxes_partition_events (x : Execution) :
    x.PartitionedByThreads ∧
      (∀ draw, (∃ dot, x.toDot draw = .ok dot) ↔ ∀ t ∈ x.threads, Text.IsWritable t) ∧
      ∀ draw dot, x.OneLine draw → x.toDot draw = .ok dot →
        boxes dot = x.threads.map (fun t => (t,
          [(Statement.clusterLabel t).toText, Statement.clusterStyle.toText,
              Statement.clusterColor.toText] ++
            (x.eventsOf t).map (fun e => (Statement.ofEvent e).toText) ++
            [(Statement.chain ((x.eventsOf t).map Event.name)).toText])) ∧
        ((boxes dot).flatMap nodeLines).Perm (x.events.map fun e => (Statement.ofEvent e).toText) := by
  refine ⟨x.partitionedByThreads, fun draw => ?_, fun draw dot h hdot => ?_⟩
  · constructor
    · rintro ⟨dot, hdot⟩
      exact (toDot_eq_ok_iff.mp hdot).1
    · exact fun hnumbers => ⟨_, toDot_eq_ok_iff.mpr ⟨hnumbers, rfl⟩⟩
  obtain ⟨-, rfl⟩ := toDot_eq_ok_iff.mp hdot
  constructor
  · rw [h.boxes_render]
    refine List.map_congr_left fun t _ => ?_
    unfold boxed
    simp only [List.map_append, List.map_map, List.map_cons, List.map_nil]
    rfl
  · rw [h.boxes_render, List.flatMap_map]
    simp only [nodeLines_boxed]
    rw [← List.map_flatMap]
    exact x.partitionedByThreads.perm.map _

/-- Two interleaved threads, one with a name twice, the other with a name that looks like the opening
of a box. -/
def interleaved : Execution where
  events :=
    [{ instr := none, opcode := "W", po := 0, thread := -1, name := "a", value := none },
      { instr := none, opcode := "R", po := 0, thread := 100000000000000000000
        name := "subgraph cluster5 \x7b", value := none },
      { instr := some "mov", opcode := "R", po := 1, thread := -1, name := "a", value := some "5" }]
  sets := []
  relations := []
  shown := []

theorem interleaved_boxes :
    interleaved.OneLine [] ∧ ∃ dot, interleaved.toDot [] = .ok dot ∧
      boxes dot =
        ([(-1, ["    label=\"Thread #-1\"", "    style=dashed", "    color=gray50",
            "    a [shape=box,label=\"W\"];", "    a [shape=box,label=\"mov\\l5\"];",
            "    a -> a;"]),
          (100000000000000000000, ["    label=\"Thread #100000000000000000000\"", "    style=dashed",
            "    color=gray50", "    subgraph cluster5 \x7b [shape=box,label=\"R\"];",
            "    subgraph cluster5 \x7b;"])] : List (Int × List Text)) := by
  have h : interleaved.OneLine [] := ⟨by decide, by decide, by decide, by decide, by decide⟩
  obtain ⟨-, hdrawable, hboxes⟩ := boxes_partition_events interleaved
  obtain ⟨dot, hdot⟩ := (hdrawable []).mpr (by decide)
  exact ⟨h, dot, hdot, (hboxes [] dot h hdot).1.trans (by decide +kernel)⟩

/-- An event of a thread whose number is a one, with as many zeros behind it as a number may have
digits. -/
def hugeThread : Execution where
  events := [{ instr := none, opcode := "W", po := 0, thread := (10 ^ Text.maxDigits : Nat), name := "a"
               value := none }]
  sets := []
  relations := []
  shown := []

/-- **The number of a thread may have too many digits** for a drawing. -/
theorem hugeThread_not_drawn : hugeThread.OneLine [] ∧ hugeThread.toDot [] = .error {} := by
  have hthread : ((10 ^ Text.maxDigits : Nat) : Int) ∈ hugeThread.threads :=
    (mem_threads_iff hugeThread _).mpr ⟨_, List.mem_singleton_self _, rfl⟩
  refine ⟨⟨by decide, by decide, by decide, by decide, by decide⟩, if_neg fun hdrawable => ?_⟩
  exact Text.not_isWritable_ten_pow (hdrawable _ hthread)

end Execution

end LitmusGraph
