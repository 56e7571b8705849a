import LitmusGraph.Text.Blank
import Mathlib.Data.List.DropRight

/-!
# Blanks around a text

A text that is trimmed loses a run of unwanted code points on either side, and nothing else. So the
trimmed text has nothing more to lose, and what is put around a text is lost with what it had there
itself.

Results:
* `exists_eq_append_trim`: a text is its trimmed form with a run on either side.
* `trim_append`: what is put around a text does not matter to its trimmed form.
* `trim_trim`, `trim_eq_nil_iff`: trimming once is enough, and when nothing is left.
-/

namespace LitmusGraph

namespace Text

section Trim

variable {p : CodePoint → Bool}

/-- **A text is its trimmed form** with a run of unwanted code points on either side. -/
theorem exists_eq_append_trim (p : CodePoint → Bool) (t : Text) :
    ∃ lead tail : Text, (∀ c ∈ lead, p c = true) ∧ (∀ c ∈ tail, p c = true) ∧
      t = lead ++ t.trim p ++ tail := by
  refine ⟨t.takeWhile p, (t.dropWhile p).rtakeWhile p, fun c => List.mem_takeWhile_imp,
    fun c => List.mem_rtakeWhile_imp, ?_⟩
  have hrest : t.trim p ++ (t.dropWhile p).rtakeWhile p = t.dropWhile p :=
    List.rdropWhile_append_rtakeWhile
  rw [List.append_assoc, hrest, List.takeWhile_append_dropWhile]

/-- **What is put around a text** does not matter to its trimmed form. -/
theorem trim_append {lead tail : Text} (hlead : ∀ c ∈ lead, p c = true)
    (htail : ∀ c ∈ tail, p c = true) (t : Text) : (lead ++ t ++ tail).trim p = t.trim p := by
  have hfront : (lead ++ t ++ tail).dropWhile p = (t ++ tail).dropWhile p := by
    rw [List.append_assoc, List.dropWhile_append_of_pos hlead]
  unfold trim
  rw [hfront, List.dropWhile_append]
  split
  · next h =>
    rw [List.isEmpty_iff.mp h, List.dropWhile_eq_nil_iff.mpr htail]
  · rw [List.reverse_append,
      List.dropWhile_append_of_pos fun c hc => htail c (List.mem_reverse.mp hc)]

/-- Trimming once is enough. -/
theorem trim_trim (p : CodePoint → Bool) (t : Text) : (t.trim p).trim p = t.trim p := by
  obtain ⟨lead, tail, hlead, htail, ht⟩ := exists_eq_append_trim p t
  calc (t.trim p).trim p = (lead ++ t.trim p ++ tail).trim p := (trim_append hlead htail _).symm
    _ = t.trim p := by rw [← ht]

/-- Nothing is left of a text of unwanted code points, and of no other. -/
theorem trim_eq_nil_iff {t : Text} : t.trim p = [] ↔ ∀ c ∈ t, p c = true := by
  constructor
  · intro h c hc
    obtain ⟨lead, tail, hlead, htail, ht⟩ := exists_eq_append_trim p t
    rw [h, List.append_nil] at ht
    rw [ht] at hc
    exact (List.mem_append.mp hc).elim (hlead c) (htail c)
  · intro h
    unfold trim
    rw [List.dropWhile_eq_nil_iff.mpr h]
    rfl

end Trim

/-! ## Blanks -/

/-- A text of blanks, or of nothing. -/
def IsBlank (t : Text) : Prop := ∀ c ∈ t, c.isBlank = true

instance (t : Text) : Decidable t.IsBlank := inferInstanceAs (Decidable (∀ _ ∈ _, _))

theorem exists_eq_append_strip (t : Text) :
    ∃ lead tail : Text, lead.IsBlank ∧ tail.IsBlank ∧ t = lead ++ t.strip ++ tail :=
  exists_eq_append_trim _ t

theorem strip_append {lead tail : Text} (hlead : lead.IsBlank) (htail : tail.IsBlank) (t : Text) :
    (lead ++ t ++ tail).strip = t.strip :=
  trim_append hlead htail t

theorem strip_strip (t : Text) : t.strip.strip = t.strip := trim_trim _ t

theorem strip_eq_nil_iff {t : Text} : t.strip = [] ↔ t.IsBlank := trim_eq_nil_iff

/-- A stripped text holds nothing that the text did not hold. -/
theorem mem_of_mem_strip {t : Text} {c : CodePoint} (h : c ∈ t.strip) : c ∈ t := by
  obtain ⟨lead, tail, -, -, ht⟩ := exists_eq_append_strip t
  rw [ht]
  exact List.mem_append_left _ (List.mem_append_right _ h)

end Text

end LitmusGraph
