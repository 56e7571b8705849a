import LitmusGraph.Proofs.Drawing.Boxes

/-!
# The anchors in the text of a drawing

Each thread hangs from the initial node by one invisible edge, its anchor, which leads to the earliest
event of the thread. A thread has an event, so none is left without an anchor. In the text the anchor
is the line behind the box of the thread. Edges of relations end like an anchor but for their style,
so if nothing drawn holds a line feed, no other line reads as one, whatever the names in it.

Results:
* `anchoredTo?_eq_some_iff`: a line is an anchor just when it is written for one.
* `exists_firstOfLowest`: the search finds the first one of the earliest events of a thread.
* `OneLine.behindBoxes_render`, `OneLine.anchors_render`: the lines behind the boxes in the text of a
  drawing, and the anchors in it.
* `threads_hang_from_earliest`: each thread hangs from its earliest event, and only once.
-/

namespace LitmusGraph

namespace Statement

/-! ## Lines that are anchors -/

/-- What stands behind the target of an anchor. -/
def anchorTail : Text := " [style=invis,constraint=true]"

/-- What stands behind the name of the relation of an edge. -/
def arrowTail (style : EdgeStyle) : Text :=
  "  \",fontcolor=" ++ style.color ++ style.extra ++ "]"

/-- Two texts end differently if as much of their ends differs. -/
theorem append_ne_append_of_take_reverse_ne {n : Nat} {s t : Text} (hs : n ≤ s.length)
    (ht : n ≤ t.length) (h : s.reverse.take n ≠ t.reverse.take n) (a b : Text) :
    a ++ s ≠ b ++ t := by
  intro heq
  have htake := congrArg (fun l => l.reverse.take n) heq
  simp only [List.reverse_append] at htake
  rw [List.take_append_of_le_length (by simpa using hs),
    List.take_append_of_le_length (by simpa using ht)] at htake
  exact h htake

/-- The end of an anchor is longer than `constraint=true`, which an edge may end with too. -/
theorem arrowTail_spec : ∀ style ∈ EdgeStyle.all, 18 ≤ (arrowTail style).length ∧
    (arrowTail style).reverse.take 18 ≠ anchorTail.reverse.take 18 := by decide

/-- **No other statement reads as an anchor.** -/
theorem eq_anchor_of_toText_eq {s : Statement} {target : Text}
    (h : s.toText = (anchor target).toText) : ∃ t, s = anchor t := by
  have hlast : s.lastCodePoint = ']' :=
    Option.some.inj ((getLast?_toText s).symm.trans ((congrArg _ h).trans (getLast?_toText _)))
  cases s with
  | anchor t => exact ⟨t, rfl⟩
  | arrow relation source t =>
    obtain ⟨hlength, htails⟩ := arrowTail_spec _ (EdgeStyle.ofRelation_mem_all relation)
    have hends : ∃ a, (arrow relation source t).toText =
        a ++ arrowTail (EdgeStyle.ofRelation relation) := by
      refine ⟨"  " ++ source ++ " -> " ++ t ++ " [color=" ++ (EdgeStyle.ofRelation relation).color ++
        ",label=\"  " ++ relation, ?_⟩
      simp only [toText, arrowText, arrowTail, List.append_assoc]
    obtain ⟨a, ha⟩ := hends
    exact absurd (ha.symm.trans h)
      (append_ne_append_of_take_reverse_ne hlength (by decide) htails a _)
  | _ => exact absurd hlast (by simp only [lastCodePoint]; decide)

/-- The event that a statement hangs a thread from, if it does. -/
def anchorTarget? : Statement → Option Text
  | anchor target => some target
  | _ => none

theorem anchorTarget?_eq_some_iff {s : Statement} {target : Text} :
    s.anchorTarget? = some target ↔ s = anchor target := by
  cases s with
  | anchor t => exact ⟨fun h => congrArg _ (Option.some.inj h), fun h => congrArg _ (anchor.inj h)⟩
  | _ => exact ⟨(nomatch ·), (nomatch ·)⟩

end Statement

/-- The event that a line hangs a thread from, if it is an anchor. -/
def anchoredTo? (line : Text) : Option Text :=
  let target := Text.between ("  " ++ initialNode ++ " -> ") Statement.anchorTail line
  if line = (Statement.anchor target).toText then some target else none

/-- **A line is an anchor** just when it is the line that is written for one. -/
theorem anchoredTo?_eq_some_iff {line target : Text} :
    anchoredTo? line = some target ↔ line = (Statement.anchor target).toText := by
  constructor
  · intro h
    unfold anchoredTo? at h
    simp only at h
    split at h
    · next hline => rwa [Option.some.inj h] at hline
    · exact nomatch h
  · rintro rfl
    have htarget : Text.between ("  " ++ initialNode ++ " -> ") Statement.anchorTail
        (Statement.anchor target).toText = target := by
      rw [Statement.toText, List.append_assoc]
      exact Text.between_append _ _ _
    unfold anchoredTo?
    simp only
    rw [htarget, if_pos rfl]

/-- A line is read as the anchor that its statement is. -/
theorem anchoredTo?_toText (s : Statement) : anchoredTo? s.toText = s.anchorTarget? := by
  refine Option.ext fun target => ?_
  rw [anchoredTo?_eq_some_iff, Statement.anchorTarget?_eq_some_iff]
  constructor
  · intro h
    obtain ⟨t, rfl⟩ := Statement.eq_anchor_of_toText_eq h
    have hread := anchoredTo?_eq_some_iff.mpr h
    rw [anchoredTo?_eq_some_iff.mpr rfl] at hread
    exact congrArg _ (Option.some.inj hread)
  · rintro rfl
    rfl

/-! ## Lines behind boxes -/

/-- The lines that stand behind the boxes among lines, each with the thread of its box, given the
thread of the box that is open. -/
def behindBoxesFrom : Option Int → List Text → List (Int × Option Text)
  | _, [] => []
  | none, line :: rest => behindBoxesFrom (openedBy? line) rest
  | some thread, line :: rest =>
    if line = Statement.closeCluster.toText then (thread, rest.head?) :: behindBoxesFrom none rest
    else behindBoxesFrom (some thread) rest

/-- The lines that stand behind the boxes in a text. -/
def behindBoxes (t : Text) : List (Int × Option Text) := behindBoxesFrom none t.lines

/-- Outside all boxes, lines that open none change nothing. -/
theorem behindBoxesFrom_none_append {ls : List Text} (h : ∀ l ∈ ls, openedBy? l = none)
    (rest : List Text) : behindBoxesFrom none (ls ++ rest) = behindBoxesFrom none rest := by
  induction ls with
  | nil => rfl
  | cons l ls ih =>
    rw [List.cons_append, behindBoxesFrom, h l List.mem_cons_self]
    exact ih fun m hm => h m (List.mem_cons_of_mem l hm)

/-- A box goes on to the line that closes it. -/
theorem behindBoxesFrom_some_append (t : Int) {ls : List Text}
    (h : ∀ l ∈ ls, l ≠ Statement.closeCluster.toText) (rest : List Text) :
    behindBoxesFrom (some t) (ls ++ Statement.closeCluster.toText :: rest) =
      (t, rest.head?) :: behindBoxesFrom none rest := by
  induction ls with
  | nil => rw [List.nil_append, behindBoxesFrom, if_pos rfl]
  | cons l ls ih =>
    rw [List.cons_append, behindBoxesFrom, if_neg (h l List.mem_cons_self)]
    exact ih fun m hm => h m (List.mem_cons_of_mem l hm)

/-! ## The earliest event -/

/-- The event is the first one of those that stand lowest in program order. -/
def Event.FirstOfLowest (events : List Event) (e : Event) : Prop :=
  ∃ front back, events = front ++ e :: back ∧ (∀ f ∈ events, e.po ≤ f.po) ∧
    ∀ f ∈ front, e.po < f.po

namespace Event

/-- **The search finds the first one of the earliest events**, if there are any. -/
theorem exists_firstOfLowest {events : List Event} (h : events ≠ []) :
    ∃ e, earliest? events = some e ∧ FirstOfLowest events e := by
  obtain ⟨b, rest, rfl⟩ := List.exists_cons_of_ne_nil h
  obtain ⟨front, e, back, hsplit, he, hfront, hback⟩ := earliest?_cons b rest
  refine ⟨e, he, front, back, hsplit, fun f hf => ?_, hfront⟩
  rw [hsplit] at hf
  rcases List.mem_append.mp hf with hf | hf
  · exact Int.le_of_lt (hfront f hf)
  rcases List.mem_cons.mp hf with rfl | hf
  · exact Int.le_refl _
  · exact hback f hf

/-- Of events in program order, the first one is the earliest one. -/
theorem FirstOfLowest.exists_cons {events : List Event} {e : Event} (h : FirstOfLowest events e)
    (hsorted : events.Pairwise fun f g => f.po ≤ g.po) : ∃ rest, events = e :: rest := by
  obtain ⟨front, back, hsplit, -, hfront⟩ := h
  cases front with
  | nil => exact ⟨back, hsplit⟩
  | cons f front =>
    rw [hsplit] at hsorted
    have hle : f.po ≤ e.po :=
      List.rel_of_pairwise_cons hsorted (List.mem_append_right front List.mem_cons_self)
    exact absurd (hfront f List.mem_cons_self) (Int.not_lt.mpr hle)

end Event

namespace Execution

variable {x : Execution} {draw : List Text}

/-- A thread has an earliest event. -/
theorem exists_earliest_of_mem_threads {t : Int} (ht : t ∈ x.threads) :
    ∃ e, Event.earliest? (x.eventsOf t) = some e ∧ Event.FirstOfLowest (x.eventsOf t) e :=
  Event.exists_firstOfLowest (x.partitionedByThreads.nonempty t ht)

/-! ## The anchors of a drawing -/

/-- The line behind the box of a thread is its anchor. -/
theorem behindBoxesFrom_threadBlock {t : Int} {e : Event}
    (he : Event.earliest? (x.eventsOf t) = some e) (rest : List Text) :
    behindBoxesFrom none ((x.threadBlock t).map Statement.toText ++ rest) =
      (t, some (Statement.anchor e.name).toText) :: behindBoxesFrom none rest := by
  have hanchor : ∀ l ∈ [(Statement.anchor e.name).toText], openedBy? l = none :=
    List.forall_mem_singleton.mpr (openedBy?_toText_eq_none fun _ => nofun)
  have hblock : (x.threadBlock t).map Statement.toText ++ rest =
      (Statement.openCluster t).toText :: ((x.boxed t).map Statement.toText ++
        Statement.closeCluster.toText :: ([(Statement.anchor e.name).toText] ++ rest)) := by
    rw [threadBlock_eq_boxed, anchor, he]
    simp only [Option.toList_some, List.map_cons, List.map_append, List.map_nil, List.cons_append,
      List.append_assoc, List.nil_append]
  rw [hblock, behindBoxesFrom, openedBy?_eq_some_iff.mpr rfl,
    behindBoxesFrom_some_append t (ne_closeCluster_of_mem_boxed x t), behindBoxesFrom_none_append hanchor]
  rfl

/-- The lines behind the boxes of threads are their anchors. -/
theorem behindBoxesFrom_flatMap_threadBlock (rest : List Text) : ∀ {ts : List Int},
    (∀ t ∈ ts, t ∈ x.threads) →
    behindBoxesFrom none ((ts.flatMap x.threadBlock).map Statement.toText ++ rest) =
      ts.map (fun t => (t, (x.anchorName t).map fun name => (Statement.anchor name).toText)) ++
        behindBoxesFrom none rest
  | [], _ => rfl
  | t :: ts, h => by
    obtain ⟨ht, hts⟩ := List.forall_mem_cons.mp h
    obtain ⟨e, he, -⟩ := exists_earliest_of_mem_threads ht
    rw [List.flatMap_cons, List.map_append, List.append_assoc, behindBoxesFrom_threadBlock he,
      behindBoxesFrom_flatMap_threadBlock rest hts, List.map_cons, anchorName, he]
    rfl

/-- **The line behind the box of each thread is its anchor.** -/
theorem OneLine.behindBoxes_render (h : x.OneLine draw) :
    behindBoxes (x.render draw) = x.threads.map fun t =>
      (t, (x.anchorName t).map fun name => (Statement.anchor name).toText) := by
  obtain ⟨front, back, hdrawing, hfront, hback⟩ := x.exists_lines_around_threads draw
  have hrest := behindBoxesFrom_none_append hback []
  rw [List.append_nil] at hrest
  unfold behindBoxes
  rw [h.lines_render, hdrawing, behindBoxesFrom_none_append hfront,
    behindBoxesFrom_flatMap_threadBlock _ fun _ => id, hrest]
  exact List.append_nil _

/-- The anchors among the statements of a thread. -/
theorem filterMap_anchorTarget?_threadBlock (x : Execution) (t : Int) :
    (x.threadBlock t).filterMap Statement.anchorTarget? = (x.anchorName t).toList := by
  have hboxed : (x.boxed t).filterMap Statement.anchorTarget? = [] := by
    refine List.filterMap_eq_nil_iff.mpr fun s hs => Option.eq_none_iff_forall_ne_some.mpr ?_
    intro target htarget
    rw [Statement.anchorTarget?_eq_some_iff] at htarget
    exact nomatch htarget ▸ isInBox_of_mem_boxed hs
  have hanchors : ((x.anchorName t).toList.map Statement.anchor).filterMap
      Statement.anchorTarget? = (x.anchorName t).toList := by
    cases x.anchorName t <;> rfl
  rw [threadBlock_eq_boxed, anchor_eq_map, List.filterMap_cons_none rfl, List.filterMap_append, hboxed,
    List.filterMap_cons_none rfl, hanchors, List.nil_append]

/-- **The anchors in the text of a drawing**: one for each thread, in order. -/
theorem OneLine.anchors_render (h : x.OneLine draw) :
    (x.render draw).lines.filterMap anchoredTo? =
      x.threads.flatMap fun t => (x.anchorName t).toList := by
  have harrows : (x.drawnArrows draw).filterMap Statement.anchorTarget? = [] := by
    rw [drawnArrows_eq_map, List.filterMap_map]
    exact List.filterMap_eq_nil_iff.mpr fun _ _ => rfl
  have hread : anchoredTo? ∘ Statement.toText = Statement.anchorTarget? :=
    funext anchoredTo?_toText
  rw [h.lines_render, List.filterMap_map, hread]
  unfold Execution.drawing
  simp only [List.filterMap_append, harrows, List.filterMap_flatMap,
    filterMap_anchorTarget?_threadBlock]
  exact (List.append_nil _).trans (List.append_nil _)

/-- **Each thread hangs from its earliest event, and only once**: if nothing drawn holds a line feed,
the line behind the box of each thread is an anchor, and there are no other anchors. It leads to the
first one of the events of the thread that stand lowest in program order; if the events stand in
program order, that is the one that the chain in the box begins with. -/
theorem threads_hang_from_earliest (h : x.OneLine draw) :
    (behindBoxes (x.render draw) = x.threads.map fun t =>
        (t, (Event.earliest? (x.eventsOf t)).map fun e => (Statement.anchor e.name).toText)) ∧
      ((x.render draw).lines.filterMap anchoredTo?).map some = x.threads.map (fun t =>
        (Event.earliest? (x.eventsOf t)).map Event.name) ∧
      ∀ t ∈ x.threads, ∃ e, Event.earliest? (x.eventsOf t) = some e ∧
        Event.FirstOfLowest (x.eventsOf t) e ∧
        ((x.eventsOf t).Pairwise (fun f g => f.po ≤ g.po) → ∃ inside rest,
          (t, inside) ∈ boxes (x.render draw) ∧
            inside.getLast? = some (Statement.chain (e.name :: rest)).toText) := by
  refine ⟨h.behindBoxes_render.trans (List.map_congr_left fun t _ => ?_), ?_, fun t ht => ?_⟩
  · rw [anchorName, Option.map_map]
    rfl
  · rw [h.anchors_render, List.map_flatMap, ← List.flatMap_singleton' (x.threads.map _),
      List.flatMap_map]
    refine List.flatMap_congr fun t ht => ?_
    obtain ⟨e, he, -⟩ := exists_earliest_of_mem_threads ht
    rw [anchorName, he]
    rfl
  · obtain ⟨e, he, hfirst⟩ := exists_earliest_of_mem_threads ht
    refine ⟨e, he, hfirst, fun hsorted => ?_⟩
    obtain ⟨rest, hrest⟩ := hfirst.exists_cons hsorted
    refine ⟨(x.boxed t).map Statement.toText, rest.map Event.name, ?_, ?_⟩
    · rw [h.boxes_render]
      exact List.mem_map_of_mem ht
    · rw [boxed, hrest, List.map_append, List.map_cons, List.map_cons, List.map_nil,
        List.getLast?_concat, List.map_cons]

/-- A thread whose first event is not the earliest one, interleaved with another thread, and an edge
from the initial node. -/
def unsorted : Execution where
  events :=
    [{ instr := none, opcode := "W", po := 2, thread := 0, name := "a", value := none },
      { instr := none, opcode := "W", po := 100000000000000000000, thread := 7, name := "d"
        value := none },
      { instr := none, opcode := "R", po := -1, thread := 0, name := "b", value := none },
      { instr := none, opcode := "R", po := -1, thread := 0, name := "c", value := none }]
  sets := []
  relations := [{ name := "co", edges := [{ source := "IW", target := "b" }] }]
  shown := []

theorem unsorted_hangs :
    unsorted.OneLine ["co"] ∧
      behindBoxes (unsorted.render ["co"]) =
        ([(0, some "  IW -> b [style=invis,constraint=true]"),
          (7, some "  IW -> d [style=invis,constraint=true]")] : List (Int × Option Text)) ∧
      (unsorted.render ["co"]).lines.filterMap anchoredTo? = (["b", "d"] : List Text) ∧
      ∃ inside rest, (7, inside) ∈ boxes (unsorted.render ["co"]) ∧
        inside.getLast? = some (Statement.chain ("d" :: rest)).toText := by
  have h : unsorted.OneLine ["co"] := ⟨by decide, by decide, by decide, by decide, by decide⟩
  obtain ⟨hbehind, hanchors, hthreads⟩ := threads_hang_from_earliest h
  obtain ⟨e, he, -, hsorted⟩ := hthreads 7 (by decide)
  obtain rfl : _ = e := Option.some.inj he
  refine ⟨h, hbehind.trans (by decide +kernel), ?_, hsorted (by decide)⟩
  exact List.map_injective_iff.mpr (fun _ _ => Option.some.inj) (hanchors.trans (by decide +kernel))

end Execution

end LitmusGraph
