import LitmusGraph.Text.LineEnds
import Mathlib.Data.List.Basic
import Mathlib.Data.List.TakeWhile

/-!
# Texts with the same lines

The end of a line may be spelled in three ways. Two texts have the same lines if they differ in
nothing else, a carriage return with a line feed behind it being one line end or two, and a text has
the same lines with its line ends unified. What goes along such texts code point by code point, and
takes no notice of how lines end, does the same on both.

Results:
* `SameLines.split`: how two texts with the same lines start.
* `SameLines.exists_append`: a front without line ends is the front of both.
* `SameLines.takeWhile_eq`, `SameLines.dropWhile`: what runs of code points there are in front.
* `sameLines_unifyLineEnds`: unified line ends keep the lines.
* `unifyLineEnds_of_notMem`: without carriage returns there is nothing to unify.
-/

namespace LitmusGraph

namespace CodePoint

/-- A code point that ends a line or is part of what does. -/
def IsBreak (c : CodePoint) : Prop := c = ('\n' : CodePoint) ∨ c = ('\r' : CodePoint)

instance : DecidablePred IsBreak := fun _ => inferInstanceAs (Decidable (_ ∨ _))

/-- A line end is no other code point. -/
theorem IsBreak.ne {c d : CodePoint} (hc : c.IsBreak) (hd : ¬ d.IsBreak) : c ≠ d := by
  rintro rfl
  exact hd hc

end CodePoint

namespace Text

/-- The ways to end a line. -/
inductive LineEnd : Text → Prop where
  /-- A line feed. -/
  | feed : LineEnd [('\n' : CodePoint)]
  /-- A carriage return. -/
  | carriage : LineEnd [('\r' : CodePoint)]
  /-- A carriage return and a line feed. -/
  | both : LineEnd [('\r' : CodePoint), ('\n' : CodePoint)]

/-- The texts are the same but for how their lines end. -/
inductive SameLines : Text → Text → Prop where
  /-- The texts are at an end. -/
  | nil : SameLines [] []
  /-- The texts go on alike. -/
  | cons (c : CodePoint) {s u : Text} (rest : SameLines s u) : SameLines (c :: s) (c :: u)
  /-- A line ends in both texts. -/
  | lineEnd {l m s u : Text} (hl : LineEnd l) (hm : LineEnd m) (rest : SameLines s u) :
    SameLines (l ++ s) (m ++ u)

/-- A line end is breaks only, and not empty. -/
theorem LineEnd.exists_cons {l : Text} (h : LineEnd l) :
    ∃ c rest, l = c :: rest ∧ c.IsBreak ∧ ∀ d ∈ rest, d.IsBreak := by
  cases h with
  | feed => exact ⟨_, _, rfl, .inl rfl, nofun⟩
  | carriage => exact ⟨_, _, rfl, .inr rfl, nofun⟩
  | both => exact ⟨_, _, rfl, .inr rfl, List.forall_mem_singleton.mpr (.inl rfl)⟩

namespace SameLines

variable {s u : Text} {c : CodePoint} {p : CodePoint → Bool}

theorem refl : ∀ t : Text, SameLines t t
  | [] => .nil
  | c :: t => .cons c (refl t)

theorem symm (h : SameLines s u) : SameLines u s := by
  induction h with
  | nil => exact .nil
  | cons c _ ih => exact .cons c ih
  | lineEnd hl hm _ ih => exact .lineEnd hm hl ih

/-- **How two texts start**: both are empty, both start with the same code point, or in both a line
ends. -/
theorem split (h : SameLines s u) :
    (s = [] ∧ u = []) ∨ (∃ c s' u', s = c :: s' ∧ u = c :: u' ∧ SameLines s' u') ∨
      ∃ c s' d u', s = c :: s' ∧ u = d :: u' ∧ c.IsBreak ∧ d.IsBreak := by
  cases h with
  | nil => exact .inl ⟨rfl, rfl⟩
  | cons c rest => exact .inr (.inl ⟨c, _, _, rfl, rfl, rest⟩)
  | lineEnd hl hm _ =>
    obtain ⟨c, l, rfl, hc, -⟩ := hl.exists_cons
    obtain ⟨d, m, rfl, hd, -⟩ := hm.exists_cons
    exact .inr (.inr ⟨c, _, d, _, rfl, rfl, hc, hd⟩)

theorem eq_nil_iff (h : SameLines s u) : s = [] ↔ u = [] := by
  rcases h.split with ⟨rfl, rfl⟩ | ⟨c, s', u', rfl, rfl, -⟩ | ⟨c, s', d, u', rfl, rfl, -, -⟩
  · rfl
  · exact iff_of_false nofun nofun
  · exact iff_of_false nofun nofun

/-- What is no break stands in front of both texts. -/
theorem exists_cons (h : SameLines (c :: s) u) (hc : ¬ c.IsBreak) :
    ∃ u', u = c :: u' ∧ SameLines s u' := by
  rcases h.split with ⟨hnil, -⟩ | ⟨d, s', u', hs, hu, rest⟩ | ⟨d, s', -, u', hs, -, hd, -⟩
  · exact nomatch hnil
  · obtain ⟨rfl, rfl⟩ := List.cons.inj hs
    exact ⟨u', hu, rest⟩
  · obtain ⟨rfl, -⟩ := List.cons.inj hs
    exact absurd hd hc

/-- **A front without line ends** is the front of both texts. -/
theorem exists_append {front : Text} (hfront : ∀ c ∈ front, ¬ c.IsBreak)
    (h : SameLines (front ++ s) u) : ∃ u', u = front ++ u' ∧ SameLines s u' := by
  induction front generalizing u with
  | nil => exact ⟨u, rfl, h⟩
  | cons c front ih =>
    obtain ⟨hc, hrest⟩ := List.forall_mem_cons.mp hfront
    obtain ⟨u', rfl, rest⟩ := h.exists_cons hc
    obtain ⟨u'', rfl, rest'⟩ := ih hrest rest
    exact ⟨u'', rfl, rest'⟩

/-- A code point other than a break stands first in both texts or in none. -/
theorem head?_eq_some_iff (h : SameLines s u) (hc : ¬ c.IsBreak) :
    s.head? = some c ↔ u.head? = some c := by
  rcases h.split with ⟨rfl, rfl⟩ | ⟨d, s', u', rfl, rfl, -⟩ | ⟨d, s', e, u', rfl, rfl, hd, he⟩
  · rfl
  · rfl
  · simp only [List.head?_cons, Option.some.injEq]
    constructor
    · rintro rfl
      exact absurd hd hc
    · rintro rfl
      exact absurd he hc

/-- **What is in front without line ends** is the same in both texts. -/
theorem takeWhile_eq (h : SameLines s u) (hp : ∀ c, c.IsBreak → p c = false) :
    s.takeWhile p = u.takeWhile p := by
  induction h with
  | nil => rfl
  | cons c _ ih => rw [List.takeWhile_cons, List.takeWhile_cons, ih]
  | lineEnd hl hm _ _ =>
    obtain ⟨c, l, rfl, hc, -⟩ := hl.exists_cons
    obtain ⟨d, m, rfl, hd, -⟩ := hm.exists_cons
    simp [hp c hc, hp d hd]

/-- **What is left behind a run** has the same lines, be line ends in the run or not. -/
theorem dropWhile (h : SameLines s u) (b : Bool) (hp : ∀ c, c.IsBreak → p c = b) :
    SameLines (s.dropWhile p) (u.dropWhile p) := by
  induction h with
  | nil => exact .nil
  | @cons c s u rest ih =>
    by_cases hc : p c = true
    · rwa [List.dropWhile_cons_of_pos hc, List.dropWhile_cons_of_pos hc]
    · rw [List.dropWhile_cons_of_neg hc, List.dropWhile_cons_of_neg hc]
      exact .cons c rest
  | @lineEnd l m s u hl hm rest ih =>
    obtain ⟨c, l', rfl, hc, hl'⟩ := hl.exists_cons
    obtain ⟨d, m', rfl, hd, hm'⟩ := hm.exists_cons
    cases b with
    | true =>
      have hdrop {e : CodePoint} {ends rest : Text} (he : e.IsBreak) (hends : ∀ e ∈ ends, e.IsBreak) :
          (e :: ends ++ rest).dropWhile p = rest.dropWhile p :=
        List.dropWhile_append_of_pos (List.forall_mem_cons.mpr ⟨hp e he, fun f hf => hp f (hends f hf)⟩)
      rwa [hdrop hc hl', hdrop hd hm']
    | false =>
      rw [List.cons_append, List.cons_append, List.dropWhile_cons_of_neg (by simp [hp c hc]),
        List.dropWhile_cons_of_neg (by simp [hp d hd])]
      exact .lineEnd hl hm rest

end SameLines

/-! ## Unified line ends -/

/-- **Unified line ends keep the lines**, unless the first line feed belongs to what stands in front
of the text. -/
theorem sameLines_unifyLineEndsAfter : ∀ (t : Text) {before : CodePoint},
    before ≠ ('\r' : CodePoint) ∨ t.head? ≠ some ('\n' : CodePoint) →
    SameLines t (t.unifyLineEndsAfter before)
  | [], _, _ => .nil
  | c :: t, before, h => by
    rw [unifyLineEndsAfter_cons]
    by_cases hc : c = ('\r' : CodePoint)
    · subst hc
      match t with
      | [] => exact .lineEnd .carriage .feed .nil
      | d :: t =>
        by_cases hd : d = ('\n' : CodePoint)
        · subst hd
          have ih : SameLines t (unifyLineEndsAfter '\n' t) :=
            sameLines_unifyLineEndsAfter t (.inl (by decide))
          exact .lineEnd .both .feed ih
        · have ih : SameLines (d :: t) (unifyLineEndsAfter '\r' (d :: t)) :=
            sameLines_unifyLineEndsAfter (d :: t) (.inr (by simpa using hd))
          exact .lineEnd .carriage .feed ih
    · have hkept : unifyLineEnd before c = some c := by
        unfold unifyLineEnd
        rw [if_neg hc, if_neg]
        rintro ⟨hfeed, hbefore⟩
        rcases h with h | h
        · exact h hbefore
        · exact h (congrArg some hfeed)
      rw [hkept]
      exact .cons c (sameLines_unifyLineEndsAfter t (.inl hc))

/-- A text has the same lines with its line ends unified. -/
theorem sameLines_unifyLineEnds (t : Text) : SameLines t t.unifyLineEnds :=
  sameLines_unifyLineEndsAfter t (.inl (by decide))

theorem unifyLineEndsAfter_of_notMem {t : Text} {before : CodePoint}
    (h : ('\r' : CodePoint) ∉ before :: t) : t.unifyLineEndsAfter before = t := by
  induction t generalizing before with
  | nil => rfl
  | cons c t ih =>
    have hbefore := List.ne_of_not_mem_cons h
    have hrest := List.not_mem_of_not_mem_cons h
    have hkept : unifyLineEnd before c = some c := by
      unfold unifyLineEnd
      rw [if_neg (List.ne_of_not_mem_cons hrest).symm, if_neg fun hfeed => hbefore hfeed.2.symm]
    rw [unifyLineEndsAfter_cons, hkept, ih hrest]
    rfl

/-- A text without carriage returns has its line ends unified. -/
theorem unifyLineEnds_of_notMem {t : Text} (h : ('\r' : CodePoint) ∉ t) : t.unifyLineEnds = t :=
  unifyLineEndsAfter_of_notMem (List.not_mem_cons_of_ne_of_not_mem (by decide) h)

end Text

end LitmusGraph
