import LitmusGraph.Drawing.DrawList
import LitmusGraph.Proofs.Drawing.Reading
import Mathlib.Algebra.Order.BigOperators.Group.List
import Mathlib.Algebra.Order.Group.Nat
import Mathlib.Data.List.Nodup
import Mathlib.Data.List.Perm.Basic

/-!
# How often an edge is drawn

The edges are drawn in a double loop, over the names of the draw list and over the relations of each
name. Sorted by relation instead, each edge of a relation is drawn as often as the draw list has the
name of the relation: once if the draw list repeats no name, and more often if it does.

Results:
* `drawnArrows_perm_copies`: the edges that are drawn, counted by relation.
* `edges_drawn_as_often_as_named`: the same for the whole drawing, and when each edge is drawn once.
* `not_drawnOnce_of_repeated_name`: a draw list with a name twice draws an edge twice.
-/

namespace LitmusGraph

/-- The edges of relations among the statements. -/
def Statement.isArrow : Statement → Bool
  | .arrow _ _ _ => true
  | _ => false

namespace Execution

/-- Each edge of a relation `n` times. -/
def copies (r : Relation) (n : Nat) : List Statement :=
  r.edges.flatMap fun e => List.replicate n (.arrow r.name e.source e.target)

/-- Each edge of a relation that the draw list names is drawn exactly once, and no other edge is. -/
def DrawnOnce (x : Execution) (draw : List Text) : Prop :=
  ((x.drawing draw).filter Statement.isArrow).Perm
    ((x.relations.filter (·.name ∈ draw)).flatMap arrows)

/-! ## Copies of a relation -/

theorem copies_zero (r : Relation) : copies r 0 = [] := by
  unfold copies
  exact List.flatMap_eq_nil_iff.mpr fun _ _ => List.replicate_zero

theorem copies_one (r : Relation) : copies r 1 = arrows r := by
  unfold copies arrows
  exact List.map_eq_flatMap.symm

theorem copies_succ_perm (r : Relation) (n : Nat) :
    (copies r (n + 1)).Perm (arrows r ++ copies r n) := by
  have hsplit : copies r (n + 1) = r.edges.flatMap fun e =>
      List.replicate 1 (.arrow r.name e.source e.target) ++
        List.replicate n (.arrow r.name e.source e.target) := by
    unfold copies
    exact List.flatMap_congr fun e _ => List.replicate_succ
  rw [← copies_one, hsplit]
  exact (List.flatMap_append_perm ..).symm

theorem length_copies (r : Relation) (n : Nat) : (copies r n).length = r.edges.length * n := by
  unfold copies
  rw [List.length_flatMap]
  simp only [List.length_replicate]
  rw [List.map_const', List.sum_replicate_nat]

/-! ## The edges by relation -/

theorem flatMap_filter {α β : Type} (p : α → Bool) (f : α → List β) (l : List α) :
    (l.filter p).flatMap f = l.flatMap fun a => if p a = true then f a else [] := by
  induction l with
  | nil => rfl
  | cons a l ih =>
    rw [List.flatMap_cons, ← ih]
    by_cases ha : p a = true
    · rw [List.filter_cons_of_pos ha, List.flatMap_cons, if_pos ha]
    · rw [List.filter_cons_of_neg ha, if_neg ha, List.nil_append]

/-- One more name in the draw list is one more copy of the relations of that name. -/
theorem copies_count_cons_perm (name : Text) (draw : List Text) (r : Relation) :
    (copies r ((name :: draw).count r.name)).Perm
      ((if decide (r.name = name) = true then arrows r else []) ++ copies r (draw.count r.name)) := by
  by_cases h : r.name = name
  · rw [if_pos (decide_eq_true h), ← h, List.count_cons_self]
    exact copies_succ_perm r _
  · rw [if_neg (by simpa using h), List.count_cons_of_ne (Ne.symm h), List.nil_append]

/-- **The edges that are drawn, counted by relation**: each edge as often as the draw list has the
name of its relation. -/
theorem drawnArrows_perm_copies (x : Execution) (draw : List Text) :
    (x.drawnArrows draw).Perm (x.relations.flatMap fun r => copies r (draw.count r.name)) := by
  induction draw with
  | nil =>
    simp only [List.count_nil, copies_zero]
    rw [List.flatMap_eq_nil_iff.mpr fun _ _ => rfl]
    exact .refl _
  | cons name draw ih =>
    have hcons : x.drawnArrows (name :: draw) =
        (x.relationsNamed name).flatMap arrows ++ x.drawnArrows draw := List.flatMap_cons
    have hnamed : (x.relationsNamed name).flatMap arrows =
        x.relations.flatMap fun r => if decide (r.name = name) = true then arrows r else [] :=
      flatMap_filter _ _ _
    rw [hcons, hnamed]
    refine (ih.append_left _).trans ((List.flatMap_append_perm ..).trans ?_)
    exact List.Perm.flatMap_left _ fun r _ => (copies_count_cons_perm name draw r).symm

/-! ## The edges of a whole drawing -/

theorem filter_isArrow_threadBlock (x : Execution) (thread : Int) :
    (x.threadBlock thread).filter Statement.isArrow = [] := by
  refine List.filter_eq_nil_iff.mpr fun s hs => ?_
  unfold threadBlock cluster anchor at hs
  simp only [List.mem_append, List.mem_cons, List.not_mem_nil, or_false, List.mem_map] at hs
  rcases hs with (((rfl | rfl | rfl | rfl) | ⟨e, -, rfl⟩) | rfl | rfl) | ⟨e, -, rfl⟩ <;>
    exact Bool.false_ne_true

/-- The edges among the statements of a drawing are the ones drawn for the draw list. -/
theorem filter_isArrow_drawing (x : Execution) (draw : List Text) :
    (x.drawing draw).filter Statement.isArrow = x.drawnArrows draw := by
  have hblocks : (x.threads.flatMap x.threadBlock).filter Statement.isArrow = [] := by
    rw [List.filter_flatMap]
    exact List.flatMap_eq_nil_iff.mpr fun t _ => filter_isArrow_threadBlock x t
  have harrows : ∀ s ∈ x.drawnArrows draw, s.isArrow = true := by
    intro s hs
    obtain ⟨name, -, hs⟩ := List.mem_flatMap.mp hs
    obtain ⟨r, -, hs⟩ := List.mem_flatMap.mp hs
    obtain ⟨e, -, rfl⟩ := List.mem_map.mp hs
    rfl
  unfold drawing
  rw [List.filter_append, List.filter_append, List.filter_append, hblocks,
    List.filter_eq_self.mpr harrows]
  exact List.append_nil _

/-! ## Edges drawn once -/

/-- As many copies as a list that repeats no name asks for. -/
theorem copies_count_of_le_one {r : Relation} {draw : List Text}
    (h : r.edges ≠ [] → draw.count r.name ≤ 1) :
    copies r (draw.count r.name) = if decide (r.name ∈ draw) = true then arrows r else [] := by
  by_cases hedges : r.edges = []
  · unfold copies arrows
    rw [hedges, List.flatMap_nil, List.map_nil, ite_self]
  by_cases hmem : r.name ∈ draw
  · have hone : draw.count r.name = 1 := le_antisymm (h hedges) (List.count_pos_iff.mpr hmem)
    rw [if_pos (decide_eq_true hmem), hone, copies_one]
  · rw [if_neg (by simpa using hmem), List.count_eq_zero.mpr hmem, copies_zero]

/-- If there are as many copies as edges to draw once, no relation is copied twice. -/
theorem count_le_one_of_length_eq {rs : List Relation} {draw : List Text}
    (h : (rs.flatMap fun r => copies r (draw.count r.name)).length =
      ((rs.filter (·.name ∈ draw)).flatMap arrows).length) :
    ∀ r ∈ rs, r.edges ≠ [] → draw.count r.name ≤ 1 := by
  have hle : ∀ r ∈ rs, (if decide (r.name ∈ draw) = true then arrows r else []).length ≤
      (copies r (draw.count r.name)).length := by
    intro r _
    rw [length_copies]
    by_cases hmem : r.name ∈ draw
    · rw [if_pos (decide_eq_true hmem), arrows, List.length_map]
      exact Nat.le_mul_of_pos_right _ (List.count_pos_iff.mpr hmem)
    · rw [if_neg (by simpa using hmem)]
      exact Nat.zero_le _
  rw [flatMap_filter, List.length_flatMap, List.length_flatMap] at h
  -- A relation named twice would have more copies than edges, and no relation has fewer.
  by_contra hmany
  push Not at hmany
  obtain ⟨r, hr, hedges, hcount⟩ := hmany
  refine absurd h.symm (ne_of_lt (List.sum_lt_sum _ _ hle ⟨r, hr, ?_⟩))
  have hmem : r.name ∈ draw := List.count_pos_iff.mp (by omega)
  rw [if_pos (decide_eq_true hmem), length_copies, arrows, List.length_map]
  exact (Nat.lt_mul_iff_one_lt_right (List.length_pos_iff.mpr hedges)).mpr hcount

/-- Each edge is drawn exactly once just when no relation with an edge is named twice. -/
theorem drawnOnce_iff (x : Execution) (draw : List Text) :
    x.DrawnOnce draw ↔ ∀ r ∈ x.relations, r.edges ≠ [] → draw.count r.name ≤ 1 := by
  unfold DrawnOnce
  rw [filter_isArrow_drawing]
  constructor
  · intro h
    exact count_le_one_of_length_eq ((drawnArrows_perm_copies x draw).length_eq.symm.trans h.length_eq)
  · intro h
    have hcopies : (x.relations.flatMap fun r => copies r (draw.count r.name)) =
        (x.relations.filter (·.name ∈ draw)).flatMap arrows := by
      rw [flatMap_filter]
      exact List.flatMap_congr fun r hr => copies_count_of_le_one (h r hr)
    exact hcopies ▸ drawnArrows_perm_copies x draw

/-- **An edge is drawn as often as its relation is named**: the lines of a drawing that are edges
of relations are, for each relation and each of its edges, as many as the draw list has the name of
the relation. So each edge is drawn exactly once just when no relation with an edge is named
twice. -/
theorem edges_drawn_as_often_as_named (x : Execution) (draw : List Text) :
    x.render draw = Text.unlines ((x.drawing draw).map Statement.toText) ∧
      ((x.drawing draw).filter Statement.isArrow).Perm
        (x.relations.flatMap fun r => copies r (draw.count r.name)) ∧
      (x.DrawnOnce draw ↔ ∀ r ∈ x.relations, r.edges ≠ [] → draw.count r.name ≤ 1) := by
  refine ⟨render_eq_unlines x draw, ?_, drawnOnce_iff x draw⟩
  rw [filter_isArrow_drawing]
  exact drawnArrows_perm_copies x draw

/-- One read. -/
def oneRead : Execution where
  events := []
  sets := []
  relations := [{ name := "rf", edges := [{ source := "a", target := "b" }] }]
  shown := []

/-- A draw list with a name twice draws an edge twice. -/
theorem not_drawnOnce_of_repeated_name :
    ¬ oneRead.DrawnOnce (DrawList.ofText "rf,rf") ∧
      (oneRead.drawing (DrawList.ofText "rf,rf")).filter Statement.isArrow =
        [.arrow "rf" "a" "b", .arrow "rf" "a" "b"] := by
  have hlist : DrawList.ofText "rf,rf" = ["rf", "rf"] := by decide
  rw [hlist]
  refine ⟨fun h => ?_, rfl⟩
  exact absurd h.length_eq (by decide)

end Execution

end LitmusGraph
