import LitmusGraph.Proofs.Drawing.Reading
import LitmusGraph.Proofs.Viewer.Session
import Mathlib.Algebra.Ring.Parity
import Mathlib.Data.List.Perm.Basic
import Mathlib.Tactic.Tauto

/-!
# Relations may be toggled in any order

Toggling takes a relation off the draw list every time it is there, and adds it once. So a draw list
with a relation on it twice is not what it was after two toggles, and relations end up in the order in
which they were added last. But which relations are drawn depends on no order: it takes an odd number
of toggles to change it, and a relation that has been toggled at all is on the list once or not at
all. Toggled in another order, the same relations give the same draw list but for its order, and so a
drawing with the same boxes and the same edges.

Results:
* `mem_toggle`, `count_toggle`, `filter_toggle`: what one toggle does to the draw list.
* `mem_toggleAll`, `count_toggleAll_le_one`, `filter_toggleAll`: what a sequence of toggles does.
* `toggleAll_perm`: the order of the toggles does not matter.
* `toggles_in_any_order`: all of this, and what it comes to in a drawing.
-/

namespace LitmusGraph

namespace Viewer

/-- The viewer after some relations are toggled, one after the other. -/
def toggleAll (v : Viewer) (names : List Text) : Viewer := v.after (names.map Action.toggle)

/-! ## One toggle -/

section Toggle

variable (v : Viewer) (toggled name : Text)

/-- A toggle changes whether its relation is drawn, and nothing else about what is drawn. -/
theorem mem_toggle : name ∈ (v.toggle toggled).draw ↔ Xor (name ∈ v.draw) (name = toggled) := by
  unfold toggle
  by_cases h : toggled ∈ v.draw
  · by_cases hname : name = toggled
    · simp [h, hname, Xor]
    · simp [h, hname, Xor]
  · by_cases hname : name = toggled
    · simp [h, hname, Xor]
    · simp [h, hname, Xor]

/-- A toggled relation is on the draw list once or not at all, and all others as often as before. -/
theorem count_toggle :
    (v.toggle toggled).draw.count name =
      if name = toggled then if name ∈ v.draw then 0 else 1 else v.draw.count name := by
  unfold toggle
  by_cases h : toggled ∈ v.draw
  · by_cases hname : name = toggled
    · simp [h, hname, List.count_eq_zero]
    · simp [h, hname, List.count_filter]
  · by_cases hname : name = toggled
    · simp [h, hname, List.count_eq_zero.mpr h]
    · simp [h, hname, List.count_append, Ne.symm hname]

/-- A toggle leaves the relations alone that it is not about, and their order too. -/
theorem filter_toggle {names : List Text} (h : toggled ∈ names) :
    (v.toggle toggled).draw.filter (· ∉ names) = v.draw.filter (· ∉ names) := by
  unfold toggle
  by_cases hdraw : toggled ∈ v.draw
  · rw [if_pos hdraw, List.filter_filter]
    refine List.filter_congr fun name _ => ?_
    by_cases hname : name = toggled
    · simp [hname, h]
    · simp [hname]
  · rw [if_neg hdraw, List.filter_append]
    simp [h]

end Toggle

/-! ## Toggles in a row -/

theorem toggleAll_cons (v : Viewer) (name : Text) (names : List Text) :
    v.toggleAll (name :: names) = (v.toggle name).toggleAll names := rfl

theorem toggleAll_snoc (v : Viewer) (names : List Text) (name : Text) :
    v.toggleAll (names ++ [name]) = (v.toggleAll names).toggle name := by
  unfold toggleAll
  rw [List.map_append, after_append]
  rfl

/-- **Which relations are drawn**: an odd number of toggles changes it for a relation, an even one
does not. -/
theorem mem_toggleAll (v : Viewer) (names : List Text) (name : Text) :
    name ∈ (v.toggleAll names).draw ↔ Xor (name ∈ v.draw) (Odd (names.count name)) := by
  induction names generalizing v with
  | nil => simp [toggleAll, after, Xor]
  | cons toggled names ih =>
    rw [toggleAll_cons, ih, mem_toggle]
    by_cases h : name = toggled
    · rw [h, List.count_cons_self, Nat.odd_add_one]
      simp only [Xor]
      tauto
    · rw [List.count_cons_of_ne (Ne.symm h)]
      simp [Xor, h]

/-- A relation that is toggled is on the draw list once at most. -/
theorem count_toggleAll_le_one {v : Viewer} {names : List Text} {name : Text}
    (h : name ∈ names ∨ v.draw.count name ≤ 1) : (v.toggleAll names).draw.count name ≤ 1 := by
  induction names generalizing v with
  | nil =>
    rcases h with h | h
    · exact absurd h List.not_mem_nil
    · exact h
  | cons toggled names ih =>
    rw [toggleAll_cons]
    refine ih ?_
    rw [count_toggle]
    by_cases hname : name = toggled
    · right
      rw [if_pos hname]
      split <;> omega
    · rw [if_neg hname]
      rcases h with h | h
      · exact .inl ((List.mem_cons.mp h).resolve_left hname)
      · exact .inr h

/-- **The relations that are never toggled** stay as often and in the order as they are. -/
theorem filter_toggleAll (v : Viewer) {names all : List Text} (h : ∀ name ∈ names, name ∈ all) :
    (v.toggleAll names).draw.filter (· ∉ all) = v.draw.filter (· ∉ all) := by
  induction names generalizing v with
  | nil => rfl
  | cons toggled names ih =>
    obtain ⟨htoggled, hnames⟩ := List.forall_mem_cons.mp h
    rw [toggleAll_cons, ih _ hnames, filter_toggle v toggled htoggled]

/-- A relation that is never toggled is on the draw list as often as before. -/
theorem count_toggleAll_of_not_mem (v : Viewer) {names : List Text} {name : Text}
    (h : name ∉ names) : (v.toggleAll names).draw.count name = v.draw.count name := by
  have hfilter : (v.toggleAll names).draw.filter (· ∉ names) = v.draw.filter (· ∉ names) :=
    filter_toggleAll v fun _ hname => hname
  have hcount (draw : List Text) : (draw.filter (· ∉ names)).count name = draw.count name :=
    List.count_filter (by simpa using h)
  rw [← hcount, hfilter, hcount]

/-- **The order of the toggles does not matter**, but for the order of the draw list. -/
theorem toggleAll_perm (v : Viewer) {names names' : List Text} (h : names.Perm names') :
    (v.toggleAll names).draw.Perm (v.toggleAll names').draw := by
  rw [List.perm_iff_count]
  intro name
  by_cases hname : name ∈ names
  · -- On either list the relation is there once or not at all, and on both or on none.
    have hmem : name ∈ (v.toggleAll names).draw ↔ name ∈ (v.toggleAll names').draw := by
      rw [mem_toggleAll, mem_toggleAll, h.count_eq]
    have hone := count_toggleAll_le_one (v := v) (.inl hname)
    have hone' := count_toggleAll_le_one (v := v) (.inl (h.mem_iff.mp hname))
    rw [← List.count_pos_iff, ← List.count_pos_iff] at hmem
    omega
  · rw [count_toggleAll_of_not_mem v hname,
      count_toggleAll_of_not_mem v fun hname' => hname (h.mem_iff.mpr hname')]

/-- **Relations may be toggled in any order.** Each call answers whether its relation is drawn from
then on. A relation is drawn after all of them if it was drawn before or is toggled an odd number of
times, but not both, and the relations that are not toggled are on the draw list as often as before
and in the same order. Toggles in another order give the same draw list in another order. So a drawing
has the same lines up to the end of the boxes, and behind them the same edges in another order. -/
theorem toggles_in_any_order (v : Viewer) (names : List Text) :
    (∀ before name rest, names = before ++ name :: rest →
      ((v.toggleAll before).perform (.toggle name)).answer =
        .draws (decide (name ∈ (v.toggleAll (before ++ [name])).draw))) ∧
    (∀ name, name ∈ (v.toggleAll names).draw ↔ Xor (name ∈ v.draw) (Odd (names.count name))) ∧
    (v.toggleAll names).draw.filter (· ∉ names) = v.draw.filter (· ∉ names) ∧
    ∀ names', names.Perm names' →
      (v.toggleAll names).draw.Perm (v.toggleAll names').draw ∧
      ∀ x : Execution,
        x.render (v.toggleAll names).draw =
          Execution.headLines ++ x.threads.flatMap x.threadLines ++
            Statement.linesOf (x.drawnArrows (v.toggleAll names).draw) ++ Execution.lastLine ∧
        x.render (v.toggleAll names').draw =
          Execution.headLines ++ x.threads.flatMap x.threadLines ++
            Statement.linesOf (x.drawnArrows (v.toggleAll names').draw) ++ Execution.lastLine ∧
        (x.drawnArrows (v.toggleAll names).draw).Perm (x.drawnArrows (v.toggleAll names').draw) := by
  refine ⟨?_, mem_toggleAll v names, filter_toggleAll v fun _ hname => hname, ?_⟩
  · rintro before name rest -
    have hdraws : decide (name ∈ ((v.toggleAll before).toggle name).draw) =
        !(v.toggleAll before).draws name := by
      unfold draws
      rw [Bool.eq_iff_iff, Bool.not_eq_true', decide_eq_true_iff, decide_eq_false_iff_not, mem_toggle]
      simp [Xor]
    rw [toggleAll_snoc, hdraws]
    rfl
  · intro names' h
    have hperm := toggleAll_perm v h
    exact ⟨hperm, fun x => ⟨x.render_eq_sections _, x.render_eq_sections _, hperm.flatMap_right _⟩⟩

/-- A viewer of an execution with two relations, one of which is on the draw list twice. -/
def doubledDraw : Viewer where
  executions :=
    [{ events := [], sets := []
       relations := [{ name := "rf", edges := [{ source := "a", target := "b" }] },
         { name := "co", edges := [{ source := "b", target := "a" }] }]
       shown := [] }]
  index := 0
  draw := ["rf", "po", "rf"]
  index_lt := by decide

/-- **Two orders of the same toggles**: the relation that was there twice is there once in the end. -/
theorem doubledDraw_toggles :
    (["rf", "co", "rf"] : List Text).Perm ["rf", "rf", "co"] ∧
      (doubledDraw.toggleAll ["rf", "co", "rf"]).draw = ["po", "co", "rf"] ∧
      (doubledDraw.toggleAll ["rf", "rf", "co"]).draw = ["po", "rf", "co"] ∧
      (doubledDraw.toggleAll ["rf", "co", "rf"]).draw.Perm
        (doubledDraw.toggleAll ["rf", "rf", "co"]).draw := by
  have hperm : (["rf", "co", "rf"] : List Text).Perm ["rf", "rf", "co"] :=
    .cons _ (.swap _ _ _)
  obtain ⟨-, -, -, horder⟩ := toggles_in_any_order doubledDraw ["rf", "co", "rf"]
  exact ⟨hperm, by decide, by decide, (horder _ hperm).1⟩

end Viewer

end LitmusGraph
