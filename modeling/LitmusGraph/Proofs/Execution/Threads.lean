import LitmusGraph.Execution.Basic
import Mathlib.Data.Finset.Card
import Mathlib.Data.List.Induction
import Mathlib.Data.List.Nodup
import Mathlib.Data.List.Perm.Basic

/-!
# The threads share out the events

The threads are found in one pass over the events, and the events of each thread in one pass more.
Nothing is lost and nothing doubled that way, however the threads are interleaved: each event is among
the events of one thread, and the events of a thread stand in the order in which they came.

Results:
* `eraseDups_snoc`: one more thread stands at the end, if it is a new one.
* `pairwise_idxOf_eraseDups`: the threads stand in the order of their first events.
* `perm_flatMap_filter_eq`: a list shared out by a key is the list again, in another order.
* `partitionedByThreads`: how the threads share out the events.
-/

namespace LitmusGraph

section EraseDups

variable {α : Type} [BEq α] [LawfulBEq α]

/-- A list with its repetitions erased grows at the end, by what is new. -/
theorem eraseDups_snoc (l : List α) (a : α) :
    (l ++ [a]).eraseDups = if a ∈ l then l.eraseDups else l.eraseDups ++ [a] := by
  rw [List.eraseDups_append, List.removeAll]
  split
  · next h => rw [List.filter_cons_of_neg (by simpa using h)]; exact List.append_nil _
  · next h => rw [List.filter_cons_of_pos (by simpa using h)]; rfl

/-- **First occurrences in order**: of two items, the one whose first occurrence comes first stands
first. -/
theorem pairwise_idxOf_eraseDups (l : List α) :
    l.eraseDups.Pairwise fun a b => l.idxOf a < l.idxOf b := by
  -- Going on at the end of `l` moves no first occurrence, and a new item is the last of them.
  induction l using List.reverseRecOn with
  | nil => exact .nil
  | append_singleton l a ih =>
    have hold : l.eraseDups.Pairwise fun b c => (l ++ [a]).idxOf b < (l ++ [a]).idxOf c := by
      refine ih.imp_of_mem fun hb hc hlt => ?_
      rwa [List.idxOf_append_of_mem (List.mem_eraseDups.mp hb),
        List.idxOf_append_of_mem (List.mem_eraseDups.mp hc)]
    rw [eraseDups_snoc]
    split
    · exact hold
    · next hnew =>
      refine List.pairwise_append.mpr ⟨hold, List.pairwise_singleton _ _, fun b hb c hc => ?_⟩
      obtain rfl := List.mem_singleton.mp hc
      have hb := List.mem_eraseDups.mp hb
      rw [List.idxOf_append_of_mem hb, List.idxOf_append_of_notMem hnew]
      exact Nat.lt_of_lt_of_le (List.idxOf_lt_length_iff.mpr hb) (Nat.le_add_right _ _)

theorem nodup_eraseDups (l : List α) : l.eraseDups.Nodup :=
  (pairwise_idxOf_eraseDups l).imp fun hlt heq => absurd (heq ▸ hlt) (Nat.lt_irrefl _)

/-- A list without repetitions has none to erase. -/
theorem eraseDups_eq_self {l : List α} (h : l.Nodup) : l.eraseDups = l := by
  induction l with
  | nil => rfl
  | cons a l ih =>
    obtain ⟨ha, hl⟩ := List.nodup_cons.mp h
    have hother : ∀ b ∈ l, (!b == a) = true := by
      intro b hb
      have hne : b ≠ a := fun e => ha (e ▸ hb)
      simp [hne]
    rw [List.eraseDups_cons, List.filter_eq_self.mpr hother, ih hl]

end EraseDups

section Share

variable {α κ : Type} [DecidableEq κ] (key : α → κ) (l : List α)

/-- **A list shared out by a key** is what it holds under any of the keys, in another order. -/
theorem perm_flatMap_filter_eq : ∀ {ks : List κ}, ks.Nodup →
    (ks.flatMap fun k => l.filter (key · = k)).Perm (l.filter (key · ∈ ks))
  | [], _ => by
    rw [List.flatMap_nil, List.filter_eq_nil_iff.mpr fun a _ => by simp]
  | k :: ks, h => by
    obtain ⟨hk, hks⟩ := List.nodup_cons.mp h
    have ih := perm_flatMap_filter_eq hks
    -- What is held under `k` and what is held under the others are the two halves of what is held.
    have hhere : (l.filter (key · ∈ k :: ks)).filter (key · = k) = l.filter (key · = k) := by
      rw [List.filter_filter]
      refine List.filter_congr fun a _ => ?_
      by_cases ha : key a = k <;> simp [ha]
    have hthere : (l.filter (key · ∈ k :: ks)).filter (fun a => !decide (key a = k)) =
        l.filter (key · ∈ ks) := by
      rw [List.filter_filter]
      refine List.filter_congr fun a _ => ?_
      by_cases ha : key a = k
      · simp [ha, hk]
      · simp [ha]
    have hhalves := List.filter_append_perm (key · = k) (l.filter (key · ∈ k :: ks))
    rw [hhere, hthere] at hhalves
    rw [List.flatMap_cons]
    exact (ih.append_left _).trans hhalves

/-- What is shared out under a key is what the list holds under it, in the order of the list. -/
theorem filter_flatMap_filter_eq (k : κ) : ∀ {ks : List κ}, ks.Nodup →
    (ks.flatMap fun k' => l.filter (key · = k')).filter (key · = k) =
      if k ∈ ks then l.filter (key · = k) else []
  | [], _ => rfl
  | k' :: ks, h => by
    obtain ⟨hk', hks⟩ := List.nodup_cons.mp h
    rw [List.flatMap_cons, List.filter_append, filter_flatMap_filter_eq k hks, List.filter_filter]
    by_cases hkk' : k = k'
    · rw [← hkk', if_neg (hkk' ▸ hk'), if_pos List.mem_cons_self, List.append_nil]
      exact List.filter_congr fun a _ => Bool.and_self _
    · have hnone : l.filter (fun a => decide (key a = k) && decide (key a = k')) = [] := by
        refine List.filter_eq_nil_iff.mpr fun a _ ha => hkk' ?_
        obtain ⟨ha, ha'⟩ := Bool.and_eq_true_iff.mp ha
        exact (of_decide_eq_true ha).symm.trans (of_decide_eq_true ha')
      rw [hnone, List.nil_append]
      simp only [List.mem_cons, hkk', false_or]

end Share

namespace Execution

/-- The threads share out the events: each thread of an event is there once, in the order of first
events, none of them without events, and their events are all events, in another order that keeps the
order within each thread. -/
structure PartitionedByThreads (x : Execution) : Prop where
  nodup : x.threads.Nodup
  mem_iff : ∀ t, t ∈ x.threads ↔ ∃ e ∈ x.events, e.thread = t
  order : x.threads.Pairwise fun t u =>
    (x.events.map Event.thread).idxOf t < (x.events.map Event.thread).idxOf u
  nonempty : ∀ t ∈ x.threads, x.eventsOf t ≠ []
  perm : (x.threads.flatMap x.eventsOf).Perm x.events
  stable : ∀ t, (x.threads.flatMap x.eventsOf).filter (·.thread = t) = x.events.filter (·.thread = t)

variable (x : Execution)

theorem mem_threads_iff (t : Int) : t ∈ x.threads ↔ ∃ e ∈ x.events, e.thread = t := by
  unfold threads
  rw [List.mem_eraseDups, List.mem_map]

theorem nodup_threads : x.threads.Nodup := nodup_eraseDups _

/-- There are as many threads as events are on. -/
theorem length_threads : x.threads.length = (x.events.map Event.thread).toFinset.card := by
  have hset : x.threads.toFinset = (x.events.map Event.thread).toFinset := by
    ext t
    simp [threads]
  rw [← hset, List.toFinset_card_of_nodup x.nodup_threads]

/-- **The threads share out the events**, however they are interleaved. -/
theorem partitionedByThreads : x.PartitionedByThreads where
  nodup := x.nodup_threads
  mem_iff := x.mem_threads_iff
  order := pairwise_idxOf_eraseDups _
  nonempty t ht := by
    obtain ⟨e, he, hthread⟩ := (x.mem_threads_iff t).mp ht
    exact List.ne_nil_of_mem (List.mem_filter.mpr ⟨he, decide_eq_true hthread⟩)
  perm := by
    have hall : x.events.filter (·.thread ∈ x.threads) = x.events :=
      List.filter_eq_self.mpr fun e he =>
        decide_eq_true ((x.mem_threads_iff e.thread).mpr ⟨e, he, rfl⟩)
    have hperm := perm_flatMap_filter_eq Event.thread x.events x.nodup_threads
    rwa [hall] at hperm
  stable t := by
    refine (filter_flatMap_filter_eq Event.thread x.events t x.nodup_threads).trans ?_
    split
    · rfl
    · next ht =>
      refine (List.filter_eq_nil_iff.mpr fun e he hthread => ht ?_).symm
      exact (x.mem_threads_iff t).mpr ⟨e, he, of_decide_eq_true hthread⟩

end Execution

end LitmusGraph
