import LitmusGraph.Proofs.Drawing.Anchors
import LitmusGraph.Proofs.Drawing.SameNames
import LitmusGraph.Proofs.Viewer.Session
import Mathlib.Algebra.GroupWithZero.Nat

/-!
# How many lines a drawing has

The number of lines of a drawing follows from the numbers of threads, events and edges: three lines
for the graph, seven for the box of each thread with its anchor, one for each event, and one for each
edge as often as the draw list has the name that it is counted under. A viewer tells how many line
feeds it counts in the text. That is the number of lines if nothing drawn holds a line feed.

Results:
* `length_threadBlock`, `length_drawnArrows`: how many statements a thread takes, and the edges.
* `length_drawing`: how many statements a drawing has.
* `lines_accounted_for`: how many line feeds its text has, and what a viewer tells of them.
-/

namespace LitmusGraph

namespace Execution

/-- The number of lines that the graph, the threads, the events and the counted edges come to. -/
def lineCount (x : Execution) (draw : List Text) : Nat :=
  3 + 7 * x.threads.length + x.events.length +
    (draw.map fun name => (x.edgeCounts.get? name).getD 0).sum

/-! ## The statements of a drawing -/

/-- A thread takes seven lines and one for each event: it has an event, so it has an anchor. -/
theorem length_threadBlock {x : Execution} {t : Int} (ht : t ∈ x.threads) :
    (x.threadBlock t).length = (x.eventsOf t).length + 7 := by
  obtain ⟨e, he, -⟩ := exists_earliest_of_mem_threads ht
  simp [threadBlock, cluster, anchor, he]

theorem length_flatMap_threadBlock (x : Execution) :
    (x.threads.flatMap x.threadBlock).length = 7 * x.threads.length + x.events.length := by
  have hblocks : ∀ ts : List Int, (∀ t ∈ ts, t ∈ x.threads) →
      (ts.flatMap x.threadBlock).length = 7 * ts.length + (ts.flatMap x.eventsOf).length := by
    intro ts hts
    induction ts with
    | nil => rfl
    | cons t ts ih =>
      obtain ⟨ht, hts⟩ := List.forall_mem_cons.mp hts
      simp only [List.flatMap_cons, List.length_append, List.length_cons, length_threadBlock ht, ih hts]
      omega
  rw [hblocks x.threads fun _ => id, x.partitionedByThreads.perm.length_eq]

/-- An edge takes one line as often as it is counted under a name of the draw list. -/
theorem length_drawnArrows (x : Execution) (draw : List Text) :
    (x.drawnArrows draw).length = (draw.map fun name => (x.edgeCounts.get? name).getD 0).sum := by
  simp [drawnArrows_eq_map, drawnEdges_eq_flatMap, List.length_flatMap, getD_get?_edgeCounts]

/-- **The statements of a drawing**, counted. -/
theorem length_drawing (x : Execution) (draw : List Text) :
    (x.drawing draw).length = x.lineCount draw := by
  unfold drawing lineCount
  simp only [List.length_append, length_flatMap_threadBlock, length_drawnArrows, List.length_cons,
    List.length_nil]
  omega

/-! ## The lines of its text -/

theorem OneLine.lineFeeds_render {x : Execution} {draw : List Text} (h : x.OneLine draw) :
    (x.render draw).lineFeeds = x.lineCount draw := by
  have hlines : ∀ l ∈ (x.drawing draw).map Statement.toText, ('\n' : CodePoint) ∉ l := by
    intro l hl
    obtain ⟨s, hs, rfl⟩ := List.mem_map.mp hl
    exact Statement.lineFeed_not_mem_toText (h.drawing s hs)
  rw [render_eq_unlines, Text.lineFeeds_unlines hlines, List.length_map, length_drawing]

/-- The last line closes the graph, and it is a line of its own. -/
theorem closingLine_suffix_render (x : Execution) (draw : List Text) :
    ("\n\x7d\n" : Text) <:+ x.render draw := by
  obtain ⟨front, s, hfront⟩ : ∃ front s,
      [.openGraph, .initial] ++ x.threads.flatMap x.threadBlock ++ x.drawnArrows draw = front ++ [s] := by
    rcases List.eq_nil_or_concat'
      ([.openGraph, .initial] ++ x.threads.flatMap x.threadBlock ++ x.drawnArrows draw) with hnil | hsome
    · exact nomatch hnil
    · exact hsome
  have hrender : x.render draw = Statement.linesOf (front ++ [s] ++ [.closeGraph]) := by
    rw [render_eq_unlines, drawing, hfront]
    rfl
  refine ⟨Statement.linesOf front ++ s.toText, ?_⟩
  rw [hrender, Statement.linesOf_append, Statement.linesOf_append, Statement.linesOf_singleton,
    Statement.linesOf_singleton]
  simp only [List.append_assoc]
  rfl

/-- **Every line is accounted for**: if nothing drawn holds a line feed, the text of a drawing has as
many line feeds as the threads, the events and the counted edges ask for, and its last line is the
brace that closes the graph. A viewer that draws the execution tells that number of lines, unless the
number of a thread keeps it from drawing. -/
theorem lines_accounted_for {x : Execution} {draw : List Text} (h : x.OneLine draw) :
    (x.render draw).lineFeeds = x.lineCount draw ∧
      ("\n\x7d\n" : Text) <:+ x.render draw ∧
      ∀ v : Viewer, v.current = x → v.draw = draw →
        (x.IsDrawable → ∃ told, v.render = .ok (told, x.render draw) ∧
          told.message =
            "Rendered execution " ++ Text.ofNat v.index ++ ": " ++ Text.ofNat x.events.length
              ++ " events on " ++ Text.ofNat x.threads.length ++ " thread(s), "
              ++ Text.ofNat (x.lineCount draw) ++ " DOT lines") ∧
        (¬ x.IsDrawable → v.render = .error (.tooManyDigits {})) := by
  refine ⟨h.lineFeeds_render, x.closingLine_suffix_render draw, ?_⟩
  rintro v rfl rfl
  refine ⟨fun hdrawable => ⟨_, Viewer.render_of_isDrawable hdrawable, ?_⟩,
    Viewer.render_of_not_isDrawable⟩
  rw [← h.lineFeeds_render]
  rfl

theorem unsorted_lines :
    unsorted.OneLine ["co", "rf", "co"] ∧
      (unsorted.render ["co", "rf", "co"]).lineFeeds = 3 + 7 * 2 + 4 + (1 + 0 + 1) ∧
      ∃ (v : Viewer) (told : Notice), v.render = .ok (told, unsorted.render ["co", "rf", "co"]) ∧
        told.message = "Rendered execution 1: 4 events on 2 thread(s), 23 DOT lines" := by
  have h : unsorted.OneLine ["co", "rf", "co"] := ⟨by decide, by decide, by decide, by decide, by decide⟩
  obtain ⟨hfeeds, -, hviewer⟩ := lines_accounted_for h
  obtain ⟨hdrawn, -⟩ := hviewer
    { executions := [scattered, unsorted], index := 1, draw := ["co", "rf", "co"]
      index_lt := by decide } rfl rfl
  obtain ⟨told, hrender, hmessage⟩ := hdrawn (by decide)
  exact ⟨h, hfeeds, _, told, hrender, hmessage.trans (by decide)⟩

end Execution

end LitmusGraph
