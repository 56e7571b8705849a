import LitmusGraph.Proofs.Text.Limit
import LitmusGraph.Viewer.Session
import Mathlib.Data.List.Basic

/-!
# Sessions with a viewer obey their laws

Whatever the calls of a session are, the viewer keeps its candidates, and its index and its draw
list go their own ways: calls that navigate leave the draw list alone, all other calls the index.
The index is known from the last candidate selected and the steps since, modulo the number of
candidates.

Results:
* `step_step`, `step_zero`: steps add up, so stepping forth and back undo each other.
* `index_perform`, `index_after`: what one call and what a whole session does to the index unless
  it selects a candidate.
* `index_after_select`: what a whole session does to the index if it selects a candidate.
* `callLaws`: the laws of a single call, for every viewer.
* `session_laws`: the laws of a session with a new viewer.
* `huge_index_refused`: an index that is refused for its digits.
-/

namespace LitmusGraph

namespace Viewer

/-! ## The laws -/

namespace Action

/-- The number of candidates that a call steps ahead. -/
def steps : Action → Int
  | next => 1
  | previous => -1
  | select _ | setDraw _ | toggle _ | resetDraw | drawShown | render => 0

/-- The call makes one of `count` candidates current by its index. -/
def Selects (count : Nat) : Action → Prop
  | select index => 0 ≤ index ∧ index < count
  | _ => False

/-- The call is about which candidate is current. -/
def Navigates : Action → Prop
  | select _ | next | previous => True
  | _ => False

end Action

/-- The steps ahead less the steps back. -/
def netSteps (actions : List Action) : Int := actions.count .next - actions.count .previous

/-- What a viewer `v` of the candidates `xs` does at a call. -/
structure CallLaws (xs : List Execution) (v : Viewer) : Prop where
  /-- A candidate is selected by its index. -/
  select : ∀ i : Int, 0 ≤ i → i < xs.length → ∃ w : Viewer, v.perform (.select i) =
      { answer := .execution w.current, log := [.selected i xs.length], viewer := w } ∧
    (w.index : Int) = i ∧ w.draw = v.draw
  /-- What is not an index is refused, and the viewer stays as it is. The refusal names the index, if
  the index can be written. -/
  refuse : ∀ i : Int, ¬ (0 ≤ i ∧ i < xs.length) → v.perform (.select i) =
    { answer := .refused (if Text.IsWritable i then .outOfRange i xs.length else .tooManyDigits {})
      log := []
      viewer := v }
  /-- A step ahead gets an index for an answer. -/
  next : (v.perform .next).answer = .index (v.perform .next).viewer.index
  /-- A step back gets an index for an answer. -/
  previous : (v.perform .previous).answer = .index (v.perform .previous).viewer.index
  /-- A step ahead is undone. -/
  next_previous : v.after [.next, .previous] = v
  /-- A step back is undone. -/
  previous_next : v.after [.previous, .next] = v
  /-- Calls that navigate keep the draw list. -/
  draw : ∀ a : Action, a.Navigates → (v.perform a).viewer.draw = v.draw
  /-- All other calls keep the index. -/
  index : ∀ a : Action, ¬ a.Navigates → (v.perform a).viewer.index = v.index
  /-- The draw list taken from an execution stays while others are made current. -/
  shown : ∀ moves : List Action, (∀ a ∈ moves, a.Navigates) →
    (v.after (.drawShown :: moves)).draw = v.current.shown
  /-- A drawing is the one of the current execution with the draw list, if that has one, and changes
  nothing. -/
  render : ∃ x, xs[v.index]? = some x ∧ (v.perform .render).answer =
      (if x.IsDrawable then .drawing (x.render v.draw) else .refused (.tooManyDigits {})) ∧
    (v.perform .render).viewer = v

/-- What the calls `actions` make of a new viewer of the candidates `xs`. -/
structure SessionLaws (xs : List Execution) (actions : List Action) (v : Viewer) : Prop where
  /-- The candidates stay. -/
  executions : v.executions = xs
  /-- The index is the index of a candidate. -/
  index_lt : v.index < xs.length
  /-- The index if no candidate was selected. -/
  index_of_forall : (∀ a ∈ actions, ¬ a.Selects xs.length) →
    (v.index : Int) = netSteps actions % xs.length
  /-- The index if a candidate was selected and none after it. -/
  index_of_append : ∀ before i rest, actions = before ++ .select i :: rest →
    Action.Selects xs.length (.select i) → (∀ a ∈ rest, ¬ a.Selects xs.length) →
    (v.index : Int) = (i + netSteps rest) % xs.length
  /-- The viewer answers the next call by the laws. -/
  calls : CallLaws xs v

/-! ## New viewers and selections -/

/-- A viewer of some candidates stands at the first one, with the default draw list. -/
theorem exists_ofExecutions {xs : List Execution} (h : xs ≠ []) :
    ∃ start : Viewer, ofExecutions xs = .ok (.viewing xs.length, start) ∧ start.executions = xs ∧
      start.index = 0 ∧ start.draw = defaultDraw :=
  ⟨{ executions := xs, index := 0, draw := defaultDraw, index_lt := List.length_pos_iff.mpr h },
    dif_pos (List.length_pos_iff.mpr h), rfl, rfl, rfl⟩

/-- A candidate is selected by its index. -/
theorem exists_select {v : Viewer} {i : Int} (h₀ : 0 ≤ i) (h₁ : i < v.size) :
    ∃ w : Viewer, v.select i = .ok (.selected i v.size, w) ∧ w.executions = v.executions ∧
      (w.index : Int) = i ∧ w.draw = v.draw := by
  have h : 0 ≤ i ∧ i < v.executions.length := ⟨h₀, h₁⟩
  have hi : i.toNat < v.executions.length := by omega
  exact ⟨{ v with index := i.toNat, index_lt := hi }, dif_pos h, rfl, Int.toNat_of_nonneg h₀, rfl⟩

/-! ## Drawings -/

theorem render_of_isDrawable {v : Viewer} (h : v.current.IsDrawable) :
    v.render = .ok (.rendered v.index v.current.events.length v.current.threads.length
      (Text.lineFeeds (v.current.render v.draw)), v.current.render v.draw) := by
  unfold render Execution.toDot
  rw [if_pos h]
  rfl

theorem render_of_not_isDrawable {v : Viewer} (h : ¬ v.current.IsDrawable) :
    v.render = .error (.tooManyDigits {}) := by
  unfold render Execution.toDot
  rw [if_neg h]
  rfl

/-! ## Steps -/

/-- Viewers with the same fields are the same. -/
theorem eq_of_fields {v w : Viewer} (hxs : v.executions = w.executions) (hi : v.index = w.index)
    (hd : v.draw = w.draw) : v = w := by
  cases v
  cases w
  subst hxs
  subst hi
  subst hd
  rfl

theorem size_pos (v : Viewer) : 0 < v.size := Nat.lt_of_le_of_lt (Nat.zero_le _) v.index_lt

@[simp] theorem step_executions (v : Viewer) (k : Int) : (v.step k).2.executions = v.executions := rfl

@[simp] theorem step_draw (v : Viewer) (k : Int) : (v.step k).2.draw = v.draw := rfl

/-- Stepping goes round at the ends. -/
theorem step_index (v : Viewer) (k : Int) :
    ((v.step k).2.index : Int) = (v.index + k) % v.size := by
  have hpos : (v.size : Int) ≠ 0 := by
    have := v.size_pos
    omega
  exact Int.toNat_of_nonneg (Int.emod_nonneg _ hpos)

/-- An index counts modulo the number of candidates. -/
theorem index_emod_size (v : Viewer) : (v.index : Int) % v.size = v.index :=
  Int.emod_eq_of_lt (Int.natCast_nonneg _) (Int.ofNat_lt.mpr v.index_lt)

theorem step_zero (v : Viewer) : (v.step 0).2 = v := by
  refine eq_of_fields rfl ?_ rfl
  have h := v.step_index 0
  rw [Int.add_zero, index_emod_size] at h
  exact Int.ofNat_inj.mp h

/-- **Steps add up.** -/
theorem step_step (v : Viewer) (j k : Int) : ((v.step j).2.step k).2 = (v.step (j + k)).2 := by
  refine eq_of_fields rfl (Int.ofNat_inj.mp ?_) rfl
  calc (((v.step j).2.step k).2.index : Int)
      = ((v.step j).2.index + k) % v.size := step_index _ k
    _ = ((v.index + j) % v.size + k) % v.size := by rw [step_index]
    _ = (v.index + (j + k)) % v.size := by rw [Int.emod_add_emod, Int.add_assoc]
    _ = ((v.step (j + k)).2.index : Int) := (step_index v _).symm

/-! ## Single calls -/

theorem perform_select {v : Viewer} {i : Int} (h₀ : 0 ≤ i) (h₁ : i < v.size) :
    ∃ w : Viewer, v.perform (.select i) =
        { answer := .execution w.current, log := [.selected i v.size], viewer := w } ∧
      w.executions = v.executions ∧ (w.index : Int) = i ∧ w.draw = v.draw := by
  obtain ⟨w, hw, hfields⟩ := exists_select h₀ h₁
  refine ⟨w, ?_, hfields⟩
  simp only [perform, hw]

theorem perform_select_refused {v : Viewer} {i : Int} (h : ¬ (0 ≤ i ∧ i < v.size)) :
    v.perform (.select i) = { answer := .refused (.ofIndex i v.size), log := [], viewer := v } := by
  have h : ¬ (0 ≤ i ∧ i < v.executions.length) := h
  simp only [perform, Viewer.select, dif_neg h]

/-- The reply to a drawing, if there is one. -/
theorem perform_render {v : Viewer} (h : v.current.IsDrawable) : v.perform .render =
    { answer := .drawing (v.current.render v.draw)
      log := [.rendered v.index v.current.events.length v.current.threads.length
        (Text.lineFeeds (v.current.render v.draw))]
      viewer := v } := by
  simp only [perform, render_of_isDrawable h]

theorem perform_render_refused {v : Viewer} (h : ¬ v.current.IsDrawable) :
    v.perform .render = { answer := .refused (.tooManyDigits {}), log := [], viewer := v } := by
  simp only [perform, render_of_not_isDrawable h]

theorem perform_render_viewer (v : Viewer) : (v.perform .render).viewer = v := by
  by_cases h : v.current.IsDrawable
  · rw [perform_render h]
  · rw [perform_render_refused h]

theorem perform_render_answer (v : Viewer) : (v.perform .render).answer =
    if v.current.IsDrawable then .drawing (v.current.render v.draw)
    else .refused (.tooManyDigits {}) := by
  by_cases h : v.current.IsDrawable
  · rw [perform_render h, if_pos h]
  · rw [perform_render_refused h, if_neg h]

theorem toggle_executions (v : Viewer) (name : Text) :
    (v.toggle name).executions = v.executions := by
  unfold toggle
  split <;> rfl

theorem toggle_index (v : Viewer) (name : Text) : (v.toggle name).index = v.index := by
  unfold toggle
  split <;> rfl

/-- The candidates stay. -/
theorem perform_executions (v : Viewer) (a : Action) :
    (v.perform a).viewer.executions = v.executions := by
  cases a with
  | select i =>
    by_cases h : 0 ≤ i ∧ i < v.size
    · obtain ⟨w, hw, hxs, -, -⟩ := perform_select h.1 h.2
      rw [hw]
      exact hxs
    · rw [perform_select_refused h]
  | toggle name => exact toggle_executions v name
  | render => rw [perform_render_viewer]
  | next | previous | setDraw | resetDraw | drawShown => rfl

/-- Calls that navigate keep the draw list. -/
theorem perform_draw (v : Viewer) {a : Action} (ha : a.Navigates) :
    (v.perform a).viewer.draw = v.draw := by
  cases a with
  | select i =>
    by_cases h : 0 ≤ i ∧ i < v.size
    · obtain ⟨w, hw, -, -, hdraw⟩ := perform_select h.1 h.2
      rw [hw]
      exact hdraw
    · rw [perform_select_refused h]
  | next | previous => rfl
  | setDraw | toggle | resetDraw | drawShown | render => exact absurd ha not_false

/-- All other calls keep the index. -/
theorem perform_index (v : Viewer) {a : Action} (ha : ¬ a.Navigates) :
    (v.perform a).viewer.index = v.index := by
  cases a with
  | select | next | previous => exact absurd trivial ha
  | toggle name => exact toggle_index v name
  | render => rw [perform_render_viewer]
  | setDraw | resetDraw | drawShown => rfl

/-- **What a call does to the index** unless it selects a candidate. -/
theorem index_perform (v : Viewer) {a : Action} (ha : ¬ a.Selects v.size) :
    ((v.perform a).viewer.index : Int) = (v.index + a.steps) % v.size := by
  cases a with
  | select i =>
    rw [perform_select_refused ha, Action.steps, Int.add_zero, index_emod_size]
  | next | previous => exact step_index v _
  | setDraw | toggle | resetDraw | drawShown | render =>
    rw [perform_index v (by exact not_false), Action.steps, Int.add_zero, index_emod_size]

/-! ## Sessions -/

theorem after_cons (v : Viewer) (a : Action) (actions : List Action) :
    v.after (a :: actions) = (v.perform a).viewer.after actions := rfl

theorem after_append (v : Viewer) (before rest : List Action) :
    v.after (before ++ rest) = (v.after before).after rest := List.foldl_append

theorem after_executions (v : Viewer) (actions : List Action) :
    (v.after actions).executions = v.executions := by
  induction actions generalizing v with
  | nil => rfl
  | cons a actions ih => rw [after_cons, ih, perform_executions]

theorem after_size (v : Viewer) (actions : List Action) : (v.after actions).size = v.size := by
  unfold size
  rw [after_executions]

theorem after_draw (v : Viewer) {moves : List Action} (h : ∀ a ∈ moves, a.Navigates) :
    (v.after moves).draw = v.draw := by
  induction moves generalizing v with
  | nil => rfl
  | cons a moves ih =>
    obtain ⟨ha, hmoves⟩ := List.forall_mem_cons.mp h
    rw [after_cons, ih _ hmoves, perform_draw v ha]

theorem netSteps_cons (a : Action) (actions : List Action) :
    netSteps (a :: actions) = a.steps + netSteps actions := by
  unfold netSteps
  cases a with
  | next =>
    rw [List.count_cons_self, List.count_cons_of_ne (by decide), Action.steps]
    omega
  | previous =>
    rw [List.count_cons_self, List.count_cons_of_ne (by decide), Action.steps]
    omega
  | select | setDraw | toggle | resetDraw | drawShown | render =>
    rw [List.count_cons_of_ne (by nofun), List.count_cons_of_ne (by nofun), Action.steps, Int.zero_add]

/-- **What a session does to the index** unless it selects a candidate. -/
theorem index_after (v : Viewer) {actions : List Action} (h : ∀ a ∈ actions, ¬ a.Selects v.size) :
    ((v.after actions).index : Int) = (v.index + netSteps actions) % v.size := by
  induction actions generalizing v with
  | nil =>
    have hnil : netSteps [] = 0 := rfl
    rw [hnil, Int.add_zero, index_emod_size]
    rfl
  | cons a actions ih =>
    obtain ⟨ha, hrest⟩ := List.forall_mem_cons.mp h
    have hsize : (v.perform a).viewer.size = v.size := after_size v [a]
    calc ((v.after (a :: actions)).index : Int)
        = ((v.perform a).viewer.index + netSteps actions) % v.size := by
          rw [after_cons, ih _ (hsize ▸ hrest), hsize]
      _ = ((v.index + a.steps) % v.size + netSteps actions) % v.size := by rw [index_perform v ha]
      _ = (v.index + netSteps (a :: actions)) % v.size := by
          rw [Int.emod_add_emod, netSteps_cons, Int.add_assoc]

/-- **A selected candidate makes all that was before forgotten.** -/
theorem index_after_select (v : Viewer) (before : List Action) {i : Int} {rest : List Action}
    (hi : Action.Selects v.size (.select i)) (hrest : ∀ a ∈ rest, ¬ a.Selects v.size) :
    ((v.after (before ++ .select i :: rest)).index : Int) = (i + netSteps rest) % v.size := by
  have hbefore : (v.after before).size = v.size := after_size v before
  rw [← hbefore] at hi hrest ⊢
  obtain ⟨w, hw, hxs, hindex, -⟩ := perform_select hi.1 hi.2
  have hsize : w.size = (v.after before).size := congrArg List.length hxs
  rw [after_append, after_cons, hw, ← hsize, ← hindex]
  exact index_after w (hsize ▸ hrest)

/-- The laws of a single call hold of every viewer. -/
theorem callLaws (v : Viewer) : CallLaws v.executions v where
  select i h₀ h₁ := by
    obtain ⟨w, hw, -, hindex, hdraw⟩ := perform_select h₀ h₁
    exact ⟨w, hw, hindex, hdraw⟩
  refuse _ h := perform_select_refused h
  next := rfl
  previous := rfl
  next_previous := (step_step v 1 (-1)).trans v.step_zero
  previous_next := (step_step v (-1) 1).trans v.step_zero
  draw _ ha := perform_draw v ha
  index _ ha := perform_index v ha
  shown moves h := by
    rw [after_cons, after_draw _ h]
    rfl
  render := ⟨v.current, List.getElem?_eq_getElem v.index_lt, perform_render_answer v,
    perform_render_viewer v⟩

/-- **The laws of a session**: a new viewer of some candidates stands at the first one with the
default draw list, and after any calls the laws hold. -/
theorem session_laws {xs : List Execution} (h : xs ≠ []) :
    ∃ start : Viewer, ofExecutions xs = .ok (.viewing xs.length, start) ∧ start.index = 0 ∧
      start.draw = defaultDraw ∧ ∀ actions, SessionLaws xs actions (start.after actions) := by
  obtain ⟨start, hstart, hxs, hzero, hdraw⟩ := exists_ofExecutions h
  refine ⟨start, hstart, hzero, hdraw, fun actions => ?_⟩
  have hsize : start.size = xs.length := congrArg List.length hxs
  have hafter : (start.after actions).executions = xs := (after_executions start actions).trans hxs
  constructor
  · exact hafter
  · exact hafter ▸ (start.after actions).index_lt
  · intro hnone
    rw [index_after start (hsize ▸ hnone), hzero, Int.natCast_zero, Int.zero_add, hsize]
  · rintro before i rest rfl hi hrest
    rw [← hsize] at hi hrest ⊢
    exact index_after_select start before hi hrest
  · exact hafter ▸ callLaws (start.after actions)

/-- Two candidates, the first of which wants the program order shown. -/
def twoCandidates : List Execution :=
  [{ events := [], sets := [], relations := [], shown := ["po"] },
    { events := [], sets := [], relations := [], shown := [] }]

theorem twoCandidates_session_laws :
    twoCandidates ≠ [] ∧ ∃ start : Viewer,
      ofExecutions twoCandidates = .ok (.viewing twoCandidates.length, start) ∧ start.index = 0 ∧
      start.draw = defaultDraw ∧
      ∀ actions, SessionLaws twoCandidates actions (start.after actions) :=
  ⟨by decide, session_laws (by decide)⟩

/-- **An index with too many digits** is refused for that, and not for being out of range. -/
theorem huge_index_refused :
    ∃ start : Viewer, ofExecutions twoCandidates = .ok (.viewing 2, start) ∧
      (start.perform (.select ((10 ^ Text.maxDigits : Nat) : Int))).answer =
        .refused (.tooManyDigits {}) := by
  obtain ⟨start, hstart, hxs, -, -⟩ := exists_ofExecutions (show twoCandidates ≠ [] by decide)
  have hsize : start.size = 2 := congrArg List.length hxs
  have hhuge : 10 ≤ 10 ^ Text.maxDigits := Nat.le_self_pow (Nat.ne_of_gt Text.maxDigits_pos) 10
  refine ⟨start, hstart, ?_⟩
  rw [perform_select_refused (by omega)]
  exact congrArg Answer.refused (if_neg Text.not_isWritable_ten_pow)

end Viewer

end LitmusGraph
