import LitmusGraph.Text.Basic

/-!
# The tokens of DOT text

DOT text is read here line by line, and no token goes on from one line to the next: a quoted string
that is still open at the end of its line makes the line unreadable. In a quoted string a backslash
takes the code point behind it along, so a quote behind a backslash does not end the string.

`Lexing.Reads` says what a piece of text does to a line that is being read. Pieces are put together
with `Lexing.Reads.append`, a piece without variables is read by computation, and the lemmas here are
about the others.

Results:
* `Dot.lex`: the tokens of a line.
* `Reads.word`, `Reads.wordEnd`: a run of plain code points is one word.
* `Reads.quoted`: what a quoted string holds, if it holds neither quotes nor backslashes.
-/

namespace LitmusGraph

namespace Dot

/-- A token of a line. -/
inductive Token where
  /-- A run of code points without quotes: a name, a keyword, an arrow or a plain value. -/
  | word (t : Text)
  /-- What stands between two quotes. -/
  | quoted (t : Text)
  /-- An opening brace. -/
  | openBrace
  /-- A closing brace. -/
  | closeBrace
  /-- An opening bracket. -/
  | openBracket
  /-- A closing bracket. -/
  | closeBracket
  /-- An equals sign. -/
  | equals
  /-- A comma. -/
  | comma
  /-- A semicolon. -/
  | semicolon
deriving DecidableEq

/-- The token that a code point is by itself. -/
def Token.ofMark? (c : CodePoint) : Option Token :=
  if c = ('\x7b' : CodePoint) then some openBrace
  else if c = ('\x7d' : CodePoint) then some closeBrace
  else if c = ('[' : CodePoint) then some openBracket
  else if c = (']' : CodePoint) then some closeBracket
  else if c = ('=' : CodePoint) then some equals
  else if c = (',' : CodePoint) then some comma
  else if c = (';' : CodePoint) then some semicolon
  else none

/-- A blank between tokens. -/
def isBlank (c : CodePoint) : Bool := c = (' ' : CodePoint) || c = ('\t' : CodePoint)

/-- What is being read of a token that has not ended. -/
inductive Pending where
  /-- A word, or nothing if it is empty so far. -/
  | word (run : Text)
  /-- A quoted string. -/
  | quoted (body : Text)
  /-- A quoted string, behind a backslash. -/
  | escaped (body : Text)

/-- A line that is being read. -/
structure Lexing where
  /-- The tokens so far, the last one first. -/
  tokens : List Token
  /-- What is being read of the next one. -/
  pending : Pending

/-- The tokens with one more word, unless that is empty. -/
def pushWord : Text → List Token → List Token
  | [], tokens => tokens
  | c :: run, tokens => .word (c :: run) :: tokens

/-- The line with one more code point read. -/
def Lexing.step (s : Lexing) (c : CodePoint) : Lexing :=
  match s.pending with
  | .word run =>
    if c = ('"' : CodePoint) then ⟨pushWord run s.tokens, .quoted []⟩
    else if isBlank c then ⟨pushWord run s.tokens, .word []⟩
    else
      match Token.ofMark? c with
      | some mark => ⟨mark :: pushWord run s.tokens, .word []⟩
      | none => ⟨s.tokens, .word (run ++ [c])⟩
  | .quoted body =>
    if c = ('"' : CodePoint) then ⟨.quoted body :: s.tokens, .word []⟩
    else if c = ('\\' : CodePoint) then ⟨s.tokens, .escaped (body ++ [c])⟩
    else ⟨s.tokens, .quoted (body ++ [c])⟩
  | .escaped body => ⟨s.tokens, .quoted (body ++ [c])⟩

/-- The tokens of a line that has been read, unless a quoted string is still open. -/
def Lexing.finish (s : Lexing) : Option (List Token) :=
  match s.pending with
  | .word run => some (pushWord run s.tokens).reverse
  | .quoted _ | .escaped _ => none

/-- The start of a line. -/
def Lexing.start : Lexing := ⟨[], .word []⟩

/-- The tokens of a line, if all its quoted strings are closed. -/
def lex (line : Text) : Option (List Token) := (line.foldl Lexing.step .start).finish

/-! ## Reading piece by piece -/

/-- A piece of a line leads from one state to another. -/
def Lexing.Reads (s : Lexing) (piece : Text) (s' : Lexing) : Prop :=
  piece.foldl Lexing.step s = s'

namespace Lexing

/-- **Pieces are read one after the other.** -/
theorem Reads.append {s s' s'' : Lexing} {a b : Text} (ha : s.Reads a s') (hb : s'.Reads b s'') :
    s.Reads (a ++ b) s'' := by
  unfold Reads at *
  rw [List.foldl_append, ha, hb]

theorem Reads.lex_eq {line : Text} {s : Lexing} (h : start.Reads line s) : lex line = s.finish := by
  unfold lex
  rw [h]

/-- A code point that words are made of. -/
def IsPlain (c : CodePoint) : Prop :=
  c ≠ ('"' : CodePoint) ∧ isBlank c = false ∧ Token.ofMark? c = none

instance (c : CodePoint) : Decidable (IsPlain c) := inferInstanceAs (Decidable (_ ∧ _ ∧ _))

/-- **A run of plain code points** goes on with the word. -/
theorem Reads.word (tokens : List Token) {t : Text} (h : ∀ c ∈ t, IsPlain c) (run : Text) :
    Reads ⟨tokens, .word run⟩ t ⟨tokens, .word (run ++ t)⟩ := by
  unfold Reads
  induction t generalizing run with
  | nil => rw [List.append_nil]; rfl
  | cons c t ih =>
    obtain ⟨hquote, hblank, hmark⟩ := h c List.mem_cons_self
    have hstep : step ⟨tokens, .word run⟩ c = ⟨tokens, .word (run ++ [c])⟩ := by
      unfold step
      simp only
      rw [if_neg hquote, hblank, hmark]
      rfl
    rw [List.foldl_cons, hstep, ih (fun d hd => h d (List.mem_cons_of_mem c hd)), List.append_assoc]
    rfl

/-- What follows a word and starts with another kind of code point is read as if the word had
ended. -/
theorem Reads.wordEnd {tokens : List Token} {run : Text} {c : CodePoint} {rest : Text} {s : Lexing}
    (hrun : run ≠ []) (hc : ¬ IsPlain c) (h : Reads ⟨.word run :: tokens, .word []⟩ (c :: rest) s) :
    Reads ⟨tokens, .word run⟩ (c :: rest) s := by
  have hpush : pushWord run tokens = .word run :: tokens := by
    cases run with
    | nil => exact absurd rfl hrun
    | cons d run => rfl
  have hstep : step ⟨tokens, .word run⟩ c = step ⟨.word run :: tokens, .word []⟩ c := by
    unfold step
    simp only
    rw [hpush]
    by_cases hquote : c = ('"' : CodePoint)
    · rw [if_pos hquote, if_pos hquote]; rfl
    by_cases hblank : isBlank c = true
    · rw [if_neg hquote, if_neg hquote, if_pos hblank, if_pos hblank]; rfl
    rw [if_neg hquote, if_neg hquote, if_neg hblank, if_neg hblank]
    cases hmark : Token.ofMark? c with
    | some mark => rfl
    | none => exact absurd ⟨hquote, Bool.eq_false_iff.mpr hblank, hmark⟩ hc
  unfold Reads at *
  rw [List.foldl_cons] at *
  rw [hstep, h]

/-- **What a quoted string holds**, if it holds neither quotes nor backslashes. -/
theorem Reads.quoted (tokens : List Token) {t : Text} (hquote : ('"' : CodePoint) ∉ t)
    (hslash : ('\\' : CodePoint) ∉ t) (body : Text) :
    Reads ⟨tokens, .quoted body⟩ t ⟨tokens, .quoted (body ++ t)⟩ := by
  unfold Reads
  induction t generalizing body with
  | nil => rw [List.append_nil]; rfl
  | cons c t ih =>
    rw [List.mem_cons, not_or] at hquote hslash
    obtain ⟨⟨hc, hquote⟩, hc', hslash⟩ := And.intro hquote hslash
    have hstep : step ⟨tokens, .quoted body⟩ c = ⟨tokens, .quoted (body ++ [c])⟩ := by
      unfold step
      simp only
      rw [if_neg (Ne.symm hc), if_neg (Ne.symm hc')]
    rw [List.foldl_cons, hstep, ih hquote hslash, List.append_assoc]
    rfl

end Lexing

end Dot

end LitmusGraph
