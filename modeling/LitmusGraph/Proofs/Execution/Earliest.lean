import LitmusGraph.Drawing.Basic

/-!
# The earliest event

`Event.earliest?` goes through the events once and keeps the best one so far.

Results:
* `earliest?_cons`: of one event or more, the earliest one stands before all that are as early and
  is earlier than all that stand before it.
* `earliest?_eq_none_iff`, `mem_of_earliest?`: it is one of the events, if there are any.
-/

namespace LitmusGraph

namespace Event

/-- The better one of the best event so far and the next one. A later event must be earlier in program
order to be better. -/
def better : Option Event → Event → Option Event
  | none, e => some e
  | some b, e => if e.po < b.po then some e else some b

theorem earliest?_eq_foldl (events : List Event) : earliest? events = events.foldl better none := by
  unfold earliest?
  congr
  funext best e
  cases best <;> rfl

/-- What the search holds after going on from `b` through `events`. -/
theorem foldl_better_some : ∀ (events : List Event) (b : Event), ∃ front e back,
    b :: events = front ++ e :: back ∧ events.foldl better (some b) = some e ∧
      (∀ f ∈ front, e.po < f.po) ∧ ∀ f ∈ back, e.po ≤ f.po
  | [], b => ⟨[], b, [], rfl, rfl, by simp, by simp⟩
  | a :: events, b => by
    by_cases hab : a.po < b.po
    · -- `a` takes the place of `b`, which is later than whatever is as early as `a`.
      obtain ⟨front, e, back, hsplit, hfold, hfront, hback⟩ := foldl_better_some events a
      have hea : e.po ≤ a.po := by
        have hmem : a ∈ front ++ e :: back := hsplit ▸ List.mem_cons_self
        rcases List.mem_append.mp hmem with h | h
        · exact Int.le_of_lt (hfront a h)
        · rcases List.mem_cons.mp h with rfl | h
          · exact Int.le_refl _
          · exact hback a h
      refine ⟨b :: front, e, back, by rw [hsplit]; rfl, ?_, ?_, hback⟩
      · simp only [List.foldl_cons, better, if_pos hab]
        exact hfold
      · intro f hf
        rcases List.mem_cons.mp hf with rfl | hf
        · omega
        · exact hfront f hf
    · -- `b` stays, and `a` is not earlier than `b`.
      obtain ⟨front, e, back, hsplit, hfold, hfront, hback⟩ := foldl_better_some events b
      have hfold' : (a :: events).foldl better (some b) = some e := by
        simp only [List.foldl_cons, better, if_neg hab]
        exact hfold
      cases front with
      | nil =>
        obtain ⟨rfl, rfl⟩ := List.cons.inj hsplit
        refine ⟨[], b, a :: events, rfl, hfold', hfront, fun f hf => ?_⟩
        rcases List.mem_cons.mp hf with rfl | hf
        · omega
        · exact hback f hf
      | cons c front =>
        obtain ⟨rfl, rfl⟩ := List.cons.inj hsplit
        have heb : e.po < b.po := hfront b List.mem_cons_self
        refine ⟨b :: a :: front, e, back, rfl, hfold', fun f hf => ?_, hback⟩
        rcases List.mem_cons.mp hf with rfl | hf
        · exact heb
        rcases List.mem_cons.mp hf with rfl | hf
        · omega
        · exact hfront f (List.mem_cons_of_mem b hf)

/-- **The earliest event** of one or more: those in front of it are later, and those behind it are no
earlier. -/
theorem earliest?_cons (b : Event) (events : List Event) : ∃ front e back,
    b :: events = front ++ e :: back ∧ earliest? (b :: events) = some e ∧
      (∀ f ∈ front, e.po < f.po) ∧ ∀ f ∈ back, e.po ≤ f.po := by
  rw [earliest?_eq_foldl]
  exact foldl_better_some events b

theorem earliest?_eq_none_iff {events : List Event} : earliest? events = none ↔ events = [] := by
  cases events with
  | nil => exact ⟨fun _ => rfl, fun _ => rfl⟩
  | cons b events =>
    obtain ⟨_, e, _, -, he, -⟩ := earliest?_cons b events
    rw [he]
    exact ⟨(nomatch ·), (nomatch ·)⟩

theorem mem_of_earliest? {events : List Event} {e : Event} (h : earliest? events = some e) :
    e ∈ events := by
  cases events with
  | nil => exact nomatch h
  | cons b events =>
    obtain ⟨front, e', back, hsplit, he, -⟩ := earliest?_cons b events
    obtain rfl := Option.some.inj (h.symm.trans he)
    rw [hsplit]
    exact List.mem_append_right front List.mem_cons_self

end Event

end LitmusGraph
