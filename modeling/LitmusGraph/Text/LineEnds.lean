import LitmusGraph.Text.Basic

/-!
# Line ends

A line may end in a line feed, a carriage return, or both in that order. `Text.unifyLineEnds` makes
each of them a line feed: every carriage return becomes a line feed, and a line feed right behind a
carriage return is dropped.

This is what happens to the text of a payload file between its bytes and the decoder, since
`read_executions` opens the file as text. Out of scope: the ends of lines in what is written, which on
this system stay as they are.
-/

namespace LitmusGraph

namespace Text

/-- What becomes of a code point behind another one. -/
def unifyLineEnd (before c : CodePoint) : Option CodePoint :=
  if c = ('\r' : CodePoint) then some '\n'
  else if c = ('\n' : CodePoint) ∧ before = ('\r' : CodePoint) then none
  else some c

/-- The text with each line end as a line feed, when `before` stands in front of it. -/
def unifyLineEndsAfter (before : CodePoint) (t : Text) : Text :=
  (List.zip (before :: t) t).filterMap fun p => unifyLineEnd p.1 p.2

/-- The text with each line end as a line feed. -/
def unifyLineEnds (t : Text) : Text := t.unifyLineEndsAfter '\n'

@[simp] theorem unifyLineEndsAfter_nil (before : CodePoint) : unifyLineEndsAfter before [] = [] := rfl

theorem unifyLineEndsAfter_cons (before c : CodePoint) (t : Text) :
    unifyLineEndsAfter before (c :: t)
      = (unifyLineEnd before c).toList ++ unifyLineEndsAfter c t := by
  simp only [unifyLineEndsAfter, List.zip_cons_cons, List.filterMap_cons]
  cases unifyLineEnd before c <;> rfl

end Text

end LitmusGraph
