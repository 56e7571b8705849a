import LitmusGraph.Execution.Display
import LitmusGraph.Proofs.Drawing.Reading
import LitmusGraph.Proofs.Execution.Threads

/-!
# How threads are interleaved does not matter

An evaluator may send the events of the threads in any interleaving. What it sends of each thread is
all that counts: two executions with the same relations and the same events of each thread are listed
the same, and their drawings hold the same blocks, one for each thread. Only the order of the blocks
tells in which order the threads came first.

Results:
* `sameThreads_swap`: neighbours of different threads may change places.
* `SameThreads.threads_perm`, `SameThreads.events_perm`: the threads and the events are the same, in
  another order.
* `render_of_sameThreads`: what becomes of the texts.
-/

namespace LitmusGraph

namespace Execution

/-- Each thread did the same in both executions, however the threads are interleaved. -/
def SameThreads (x y : Execution) : Prop := ∀ t, x.eventsOf t = y.eventsOf t

/-- Neighbours of different threads may change places. -/
theorem sameThreads_swap (x : Execution) (front back : List Event) {e f : Event}
    (h : e.thread ≠ f.thread) :
    SameThreads { x with events := front ++ e :: f :: back }
      { x with events := front ++ f :: e :: back } := by
  intro t
  unfold eventsOf
  rw [List.filter_append, List.filter_append]
  congr 1
  by_cases he : e.thread = t
  · have hf : f.thread ≠ t := fun hf => h (he.trans hf.symm)
    simp [he, hf]
  · simp [List.filter_cons, he]

namespace SameThreads

variable {x y : Execution}

theorem symm (h : SameThreads x y) : SameThreads y x := fun t => (h t).symm

/-- A thread of one execution is a thread of the other one. -/
theorem mem_threads (h : SameThreads x y) {t : Int} (ht : t ∈ x.threads) : t ∈ y.threads := by
  obtain ⟨e, he, hthread⟩ := (x.mem_threads_iff t).mp ht
  have hx : e ∈ x.eventsOf t := List.mem_filter.mpr ⟨he, decide_eq_true hthread⟩
  rw [h t] at hx
  exact (y.mem_threads_iff t).mpr ⟨e, (List.mem_filter.mp hx).1, hthread⟩

/-- The threads are the same, in another order. -/
theorem threads_perm (h : SameThreads x y) : x.threads.Perm y.threads :=
  (List.perm_ext_iff_of_nodup x.nodup_threads y.nodup_threads).mpr fun _ =>
    ⟨h.mem_threads, h.symm.mem_threads⟩

/-- The events are the same, in another order. -/
theorem events_perm (h : SameThreads x y) : x.events.Perm y.events := by
  have hsame : x.threads.flatMap x.eventsOf = x.threads.flatMap y.eventsOf :=
    List.flatMap_congr fun t _ => h t
  have hblocks : (x.threads.flatMap x.eventsOf).Perm (y.threads.flatMap y.eventsOf) := by
    rw [hsame]
    exact h.threads_perm.flatMap_right _
  exact (x.partitionedByThreads.perm.symm.trans hblocks).trans y.partitionedByThreads.perm

/-- The lines of each thread are the same. -/
theorem threadLines_eq (h : SameThreads x y) : x.threadLines = y.threadLines := by
  funext t
  unfold threadLines threadBlock
  rw [h t]

/-- The executions are listed the same. -/
theorem summary_eq (h : SameThreads x y) (hrelations : x.relations = y.relations) :
    x.summary = y.summary := by
  unfold summary relationNames
  rw [h.events_perm.length_eq, h.threads_perm.length_eq, hrelations]

end SameThreads

/-- The edges are drawn from the relations alone. -/
theorem edgeLines_eq {x y : Execution} (h : x.relations = y.relations) (draw : List Text) :
    x.edgeLines draw = y.edgeLines draw := by
  unfold edgeLines drawnArrows relationsNamed
  rw [h]

/-- **Only the order within each thread matters**, not how the threads are interleaved. Executions
with the same relations and the same events of each thread are listed the same. Their drawings start
with the same lines and end with the same edges, and between those stand the same blocks, each of them
in the order in which its threads came first: so the drawings are the same if the threads came in the
same order. -/
theorem render_of_sameThreads {x y : Execution} (hrelations : x.relations = y.relations)
    (h : x.SameThreads y) (draw : List Text) :
    x.summary = y.summary ∧
      x.threads.Perm y.threads ∧
      x.render draw =
        headLines ++ x.threads.flatMap x.threadLines ++ x.edgeLines draw ++ lastLine ∧
      y.render draw =
        headLines ++ y.threads.flatMap x.threadLines ++ x.edgeLines draw ++ lastLine ∧
      (x.threads = y.threads → x.render draw = y.render draw) := by
  have hy : y.render draw =
      headLines ++ y.threads.flatMap x.threadLines ++ x.edgeLines draw ++ lastLine := by
    rw [y.render_eq_sections, h.threadLines_eq, edgeLines_eq hrelations]
  refine ⟨h.summary_eq hrelations, h.threads_perm, x.render_eq_sections draw, hy, ?_⟩
  intro hthreads
  rw [hy, x.render_eq_sections, hthreads]

/-- An event of a thread. -/
def write (thread po : Int) (name : Text) : Event :=
  { instr := none, opcode := "W", po, thread, name, value := none }

/-- Two threads with two writes and one write, sent in some order. -/
def twoThreads (events : List Event) : Execution where
  events
  sets := []
  relations := [{ name := "co", edges := [{ source := "a", target := "c" }] }]
  shown := []

/-- **Three interleavings of two threads**: the first two have one drawing, and the third has the same
blocks in the other order. -/
theorem twoThreads_interleaved :
    let x := twoThreads [write 0 0 "a", write 0 1 "b", write (-1) 0 "c"]
    let y := twoThreads [write 0 0 "a", write (-1) 0 "c", write 0 1 "b"]
    let z := twoThreads [write (-1) 0 "c", write 0 0 "a", write 0 1 "b"]
    x.SameThreads y ∧ x.render ["co"] = y.render ["co"] ∧
      y.SameThreads z ∧ y.summary = z.summary ∧ y.threads = [0, -1] ∧ z.threads = [-1, 0] ∧
      z.render ["co"] =
        headLines ++ (y.threadLines (-1) ++ y.threadLines 0) ++ y.edgeLines ["co"] ++ lastLine := by
  intro x y z
  have hxy : x.SameThreads y := sameThreads_swap x [write 0 0 "a"] [] (by decide)
  have hyz : y.SameThreads z := sameThreads_swap y [] [write 0 1 "b"] (by decide)
  have hrelations : x.relations = y.relations := rfl
  have hrelations' : y.relations = z.relations := rfl
  obtain ⟨-, -, -, -, hrender⟩ := render_of_sameThreads hrelations hxy ["co"]
  obtain ⟨hsummary, -, -, hz, -⟩ := render_of_sameThreads hrelations' hyz ["co"]
  refine ⟨hxy, hrender (by decide), hyz, hsummary, by decide, by decide, ?_⟩
  have hthreads : z.threads = [-1, 0] := by decide
  rw [hz, hthreads]
  simp only [List.flatMap_cons, List.flatMap_nil, List.append_nil]

end Execution

end LitmusGraph
