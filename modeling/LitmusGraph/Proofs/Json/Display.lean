import LitmusGraph.Json.Display
import LitmusGraph.Proofs.Text.Reading

/-!
# A value has a text

Whatever a JSON value is, there is something to read when it is displayed: a number has digits or a
name, and all else has marks around it or a word of its own. So a value as text is empty for the empty
string only.

Results:
* `Decimal.layout_ne_nil`, `Binary64.toText_ne_nil`: a number is never written as nothing.
* `Json.display_ne_nil`, `Json.toText_eq_nil_iff`: when a value has no text.
-/

namespace LitmusGraph

theorem Text.ofInt_ne_nil : ∀ n : Int, ofInt n ≠ []
  | .ofNat n => ofNat_ne_nil n
  | .negSucc _ => List.cons_ne_nil _ _

/-- The layout of a decimal has a point or an exponent. -/
theorem Decimal.layout_ne_nil (digits : Text) (point : Int) : layout digits point ≠ [] := by
  have hmark (lead : Text) {mark tail : Text} (h : mark ≠ []) : lead ++ mark ++ tail ≠ [] :=
    List.append_ne_nil_of_left_ne_nil (List.append_ne_nil_of_right_ne_nil _ h) _
  unfold layout
  split
  · exact List.append_ne_nil_of_left_ne_nil (List.append_ne_nil_of_left_ne_nil (hmark _ (by decide)) _) _
  · split
    · exact List.append_ne_nil_of_left_ne_nil (hmark [] (by decide)) _
    · split
      · exact List.append_ne_nil_of_right_ne_nil _ (by decide)
      · exact hmark _ (by decide)

theorem Binary64.toText_ne_nil (x : Binary64) : x.toText ≠ [] := by
  unfold toText
  simp only
  split
  · decide
  · split
    · exact List.append_ne_nil_of_left_ne_nil (by decide) _
    · split
      · decide
      · split
        · decide
        · exact Decimal.layout_ne_nil _ _

namespace Json

/-- **There is something to read** of every value. -/
theorem display_ne_nil (v : Json) : v.display ≠ [] := by
  cases v with
  | null => unfold display; decide
  | bool b => cases b <;> unfold display <;> decide
  | int n => unfold display; exact Text.ofInt_ne_nil n
  | float x => unfold display; exact x.toText_ne_nil
  | string t => unfold display; exact List.cons_ne_nil _ _
  | array items | object members => unfold display; exact List.cons_ne_nil _ _

/-- **A value has no text** if it is the empty string, and only then. -/
theorem toText_eq_nil_iff (v : Json) : v.toText = [] ↔ v = .string [] := by
  cases v with
  | string t => exact ⟨congrArg Json.string, Json.string.inj⟩
  | null | bool | int | float | array | object =>
    exact iff_of_false (display_ne_nil _) nofun

end Json

end LitmusGraph
