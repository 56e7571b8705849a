import LitmusGraph.Text.Basic
import Mathlib.Algebra.GroupWithZero.Nat

/-!
# The limit on digits

A whole number is written only if it has no more digits than `Text.maxDigits`, and it is read only from
as many digits. So what is read can be written, and the first number that cannot be written is a one
with so many zeros behind it.

Results:
* `isWritable_iff_natAbs_lt`: the limit as a bound on the number.
* `not_isWritable_ten_pow`: a number that goes over it.
* `isWritable_digitsValue`: what few enough digits write can be written again.
-/

namespace LitmusGraph

namespace Text

theorem maxDigits_pos : 0 < maxDigits := by decide

/-- A number can be written just when it is small enough, its sign aside. -/
theorem isWritable_iff_natAbs_lt {n : Int} : IsWritable n ↔ n.natAbs < 10 ^ maxDigits := by
  unfold IsWritable ofNat
  rw [List.length_map]
  exact Nat.length_toDigits_le_iff (by decide) maxDigits_pos

theorem isWritable_neg {n : Int} : IsWritable (-n) ↔ IsWritable n := by
  rw [isWritable_iff_natAbs_lt, isWritable_iff_natAbs_lt, Int.natAbs_neg]

/-- **The first number that cannot be written.** -/
theorem not_isWritable_ten_pow : ¬ IsWritable ((10 ^ maxDigits : Nat) : Int) := by
  rw [isWritable_iff_natAbs_lt, Int.natAbs_natCast]
  exact Nat.lt_irrefl _

/-- Digits behind a number make it no larger than so many nines would. -/
theorem foldl_digits_lt {t : Text} (h : ∀ c ∈ t, c.isDigit = true) (n : Nat) :
    t.foldl (fun n c => 10 * n + (c.val - 0x30)) n < (n + 1) * 10 ^ t.length := by
  induction t generalizing n with
  | nil =>
    rw [List.foldl_nil, List.length_nil, Nat.pow_zero, Nat.mul_one]
    exact Nat.lt_succ_self n
  | cons c t ih =>
    obtain ⟨hc, ht⟩ := List.forall_mem_cons.mp h
    have hdigit : c.val - 0x30 ≤ 9 := by
      simp only [CodePoint.isDigit, Bool.and_eq_true, decide_eq_true_eq] at hc
      omega
    rw [List.foldl_cons, List.length_cons, Nat.pow_succ', ← Nat.mul_assoc]
    exact Nat.lt_of_lt_of_le (ih ht _) (Nat.mul_le_mul_right _ (by omega))

theorem digitsValue_lt {t : Text} (h : ∀ c ∈ t, c.isDigit = true) :
    t.digitsValue < 10 ^ t.length := by
  have hlt := foldl_digits_lt h 0
  rw [Nat.zero_add, Nat.one_mul] at hlt
  exact hlt

/-- **What few enough digits write** can be written again. -/
theorem isWritable_digitsValue {t : Text} (h : ∀ c ∈ t, c.isDigit = true)
    (hlength : t.length ≤ maxDigits) : IsWritable (t.digitsValue : Int) := by
  rw [isWritable_iff_natAbs_lt, Int.natAbs_natCast]
  exact Nat.lt_of_lt_of_le (digitsValue_lt h) (Nat.pow_le_pow_right (by decide) hlength)

end Text

end LitmusGraph
