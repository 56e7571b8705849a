import LitmusGraph.Json.Reader
import LitmusGraph.Proofs.Text.LineEnds

/-!
# Parts of JSON values without line ends

A number and the number of an escape hold no line end, and what they do hold decides how far they
go. So they are read alike of texts with the same lines, and leave texts with the same lines.

Results:
* `blind_numeral?`: numbers.
* `blind_escapedNumber?`: the numbers of escapes.
-/

namespace LitmusGraph

namespace Json

open Text (SameLines)

/-- A part is read of one text as of any other with the same lines, and leaves texts with the same
lines, each of them the end of its text. -/
def Blind {α : Type} (part? : Text → Option (α × Text)) : Prop :=
  ∀ ⦃s u : Text⦄ ⦃a : α⦄ ⦃rest : Text⦄, SameLines s u → part? s = some (a, rest) →
    rest <:+ s ∧ ∃ rest', part? u = some (a, rest') ∧ SameLines rest rest'

namespace Blind

variable {α β : Type} {part? : Text → Option (α × Text)} {s u : Text}

/-- A part is blind if it does not start with a line end, and does whatever else it starts with alike. -/
theorem of_cons (hnil : part? [] = none)
    (hbreak : ∀ {c : CodePoint} (t : Text), c.IsBreak → part? (c :: t) = none)
    (hcons : ∀ (c : CodePoint) {s u : Text} {a : α} {rest : Text}, SameLines s u →
      part? (c :: s) = some (a, rest) →
        rest <:+ c :: s ∧ ∃ rest', part? (c :: u) = some (a, rest') ∧ SameLines rest rest') :
    Blind part? := by
  intro s u a rest h hs
  rcases h.split with ⟨rfl, rfl⟩ | ⟨c, s, u, rfl, rfl, h'⟩ | ⟨c, s, d, u, rfl, rfl, hc, -⟩
  · exact nomatch hnil.symm.trans hs
  · exact hcons c h' hs
  · exact nomatch (hbreak s hc).symm.trans hs

/-- A part leaves the end of its text. -/
theorem suffix (h : Blind part?) {a : α} {rest : Text} (hs : part? s = some (a, rest)) : rest <:+ s :=
  (h (.refl s) hs).1

/-- A part that is read from behind a code point leaves the end of the text with it. -/
theorem behind (h : Blind part?) (hsu : SameLines s u) (c : CodePoint) {a : α} {rest : Text}
    (hs : part? s = some (a, rest)) :
    rest <:+ c :: s ∧ ∃ rest', part? u = some (a, rest') ∧ SameLines rest rest' :=
  ⟨(h.suffix hs).trans (List.suffix_cons c s), (h hsu hs).2⟩

/-- What is no part of one text is none of the other. -/
theorem eq_none (h : Blind part?) (hsu : SameLines s u) (hs : part? s = none) : part? u = none := by
  cases hu : part? u with
  | none => rfl
  | some p =>
    obtain ⟨-, rest, hs', -⟩ := h hsu.symm hu
    exact nomatch hs.symm.trans hs'

theorem map (h : Blind part?) (f : α → β) :
    Blind fun t => (part? t).map fun (a, rest) => (f a, rest) := by
  intro s u b rest hsu hs
  obtain ⟨⟨a, rest⟩, ha, heq⟩ := Option.map_eq_some_iff.mp hs
  cases heq
  obtain ⟨hsuffix, rest', hu, hrest⟩ := h hsu ha
  exact ⟨hsuffix, rest', Option.map_eq_some_iff.mpr ⟨(a, rest'), hu, rfl⟩, hrest⟩

/-- An optional part is blind as well. -/
theorem optionalPart (h : Blind part?) (hsu : SameLines s u) :
    (Json.optionalPart part? s).2 <:+ s ∧
      (Json.optionalPart part? s).1 = (Json.optionalPart part? u).1 ∧
      SameLines (Json.optionalPart part? s).2 (Json.optionalPart part? u).2 := by
  unfold Json.optionalPart
  cases hs : part? s with
  | none =>
    rw [h.eq_none hsu hs]
    exact ⟨List.suffix_refl s, rfl, hsu⟩
  | some p =>
    obtain ⟨hsuffix, rest, hu, hrest⟩ := h hsu hs
    rw [hu]
    exact ⟨hsuffix, rfl, hrest⟩

end Blind

/-! ### Numbers -/

theorem isDigit_of_isBreak {c : CodePoint} (h : c.IsBreak) : c.isDigit = false := by
  rcases h with rfl | rfl <;> decide

theorem digits?_eq_some_iff {t ds rest : Text} :
    digits? t = some (ds, rest) ↔
      t.takeWhile CodePoint.isDigit = ds ∧ ds ≠ [] ∧ t.dropWhile CodePoint.isDigit = rest := by
  unfold digits?
  cases h : t.takeWhile CodePoint.isDigit with
  | nil =>
    constructor
    · exact nofun
    · rintro ⟨rfl, hne, -⟩
      exact absurd rfl hne
  | cons d ds' =>
    constructor
    · intro heq
      cases heq
      exact ⟨rfl, nofun, rfl⟩
    · rintro ⟨rfl, -, rfl⟩
      rfl

theorem blind_digits? : Blind digits? := by
  intro s u ds rest h hs
  obtain ⟨htake, hne, rfl⟩ := digits?_eq_some_iff.mp hs
  have htake' := h.takeWhile_eq fun _ => isDigit_of_isBreak
  exact ⟨List.dropWhile_suffix _, _, digits?_eq_some_iff.mpr ⟨htake' ▸ htake, hne, rfl⟩,
    h.dropWhile false fun _ => isDigit_of_isBreak⟩

/-- No digits stand where a line ends. -/
theorem digits?_of_isBreak {c : CodePoint} (h : c.IsBreak) (t : Text) : digits? (c :: t) = none := by
  unfold digits?
  rw [List.takeWhile_cons_of_neg (by simp [isDigit_of_isBreak h])]

theorem wholePart?_cons (c : CodePoint) (t : Text) :
    wholePart? (c :: t) = if c = ('0' : CodePoint) then some ([c], t) else digits? (c :: t) := rfl

theorem blind_wholePart? : Blind wholePart? := by
  refine .of_cons rfl (fun t hc => ?_) fun c s u ds rest h hs => ?_
  · rw [wholePart?_cons, if_neg (hc.ne (by decide)), digits?_of_isBreak hc]
  rw [wholePart?_cons] at hs ⊢
  by_cases hzero : c = ('0' : CodePoint)
  · rw [if_pos hzero] at hs ⊢
    obtain ⟨rfl, rfl⟩ := Prod.mk.inj (Option.some.inj hs)
    exact ⟨List.suffix_cons _ _, u, rfl, h⟩
  · rw [if_neg hzero] at hs ⊢
    exact blind_digits? (.cons c h) hs

theorem fractionPart?_cons (c : CodePoint) (t : Text) :
    fractionPart? (c :: t) = if c = ('.' : CodePoint) then digits? t else none := rfl

theorem blind_fractionPart? : Blind fractionPart? := by
  refine .of_cons rfl (fun t hc => ?_) fun c s u ds rest h hs => ?_
  · rw [fractionPart?_cons, if_neg (hc.ne (by decide))]
  rw [fractionPart?_cons] at hs ⊢
  by_cases hpoint : c = ('.' : CodePoint)
  · rw [if_pos hpoint] at hs ⊢
    exact blind_digits?.behind h c hs
  · rw [if_neg hpoint] at hs
    exact nomatch hs

/-- The sign and the digits of an exponent. -/
def signedDigits? : Text → Option (Int × Text)
  | [] => none
  | sign :: digits =>
    if sign = ('-' : CodePoint) then
      (digits? digits).map fun (ds, behind) => (-(ds.digitsValue : Int), behind)
    else
      (digits? (if sign = ('+' : CodePoint) then digits else sign :: digits)).map
        fun (ds, behind) => ((ds.digitsValue : Int), behind)

theorem signedDigits?_cons (sign : CodePoint) (t : Text) :
    signedDigits? (sign :: t) =
      if sign = ('-' : CodePoint) then
        (digits? t).map fun (ds, behind) => (-(ds.digitsValue : Int), behind)
      else
        (digits? (if sign = ('+' : CodePoint) then t else sign :: t)).map
          fun (ds, behind) => ((ds.digitsValue : Int), behind) := rfl

theorem blind_signedDigits? : Blind signedDigits? := by
  have hminus : Blind fun t => (digits? t).map fun (ds, behind) => (-(ds.digitsValue : Int), behind) :=
    blind_digits?.map fun ds => -(ds.digitsValue : Int)
  have hplain : Blind fun t => (digits? t).map fun (ds, behind) => ((ds.digitsValue : Int), behind) :=
    blind_digits?.map fun ds => (ds.digitsValue : Int)
  refine .of_cons rfl (fun t hc => ?_) fun c s u n rest h hs => ?_
  · rw [signedDigits?_cons, if_neg (hc.ne (by decide)), if_neg (hc.ne (by decide)),
      digits?_of_isBreak hc]
    rfl
  rw [signedDigits?_cons] at hs ⊢
  by_cases hneg : c = ('-' : CodePoint)
  · rw [if_pos hneg] at hs ⊢
    exact hminus.behind h c hs
  rw [if_neg hneg] at hs ⊢
  by_cases hpos : c = ('+' : CodePoint)
  · rw [if_pos hpos] at hs ⊢
    exact hplain.behind h c hs
  · rw [if_neg hpos] at hs ⊢
    exact hplain (.cons c h) hs

theorem exponentPart?_cons (mark : CodePoint) (rest : Text) :
    exponentPart? (mark :: rest) =
      if mark = ('e' : CodePoint) ∨ mark = ('E' : CodePoint) then signedDigits? rest else none := by
  unfold exponentPart? signedDigits?
  cases rest <;> rfl

theorem blind_exponentPart? : Blind exponentPart? := by
  refine .of_cons rfl (fun t hc => ?_) fun c s u n rest h hs => ?_
  · rw [exponentPart?_cons, if_neg (not_or.mpr ⟨hc.ne (by decide), hc.ne (by decide)⟩)]
  rw [exponentPart?_cons] at hs ⊢
  by_cases hmark : c = ('e' : CodePoint) ∨ c = ('E' : CodePoint)
  · rw [if_pos hmark] at hs ⊢
    exact blind_signedDigits?.behind h c hs
  · rw [if_neg hmark] at hs
    exact nomatch hs

/-- The number in front of a text, its sign aside. -/
def unsigned? (negative : Bool) (t : Text) : Option (Numeral × Text) :=
  (wholePart? t).map fun (whole, rest) =>
    let fraction := optionalPart fractionPart? rest
    let exponent := optionalPart exponentPart? fraction.2
    ({ negative, whole, fraction := fraction.1, exponent := exponent.1 }, exponent.2)

theorem numeral?_eq (t : Text) :
    numeral? t =
      if t.head? = some ('-' : CodePoint) then unsigned? true (t.drop 1) else unsigned? false t := by
  unfold numeral? unsigned?
  by_cases h : t.head? = some ('-' : CodePoint)
  · simp only [h, if_true, decide_true]
    cases wholePart? (t.drop 1) <;> rfl
  · simp only [h, if_false, decide_false]
    cases wholePart? t <;> rfl

theorem blind_unsigned? (negative : Bool) : Blind (unsigned? negative) := by
  intro s u n rest h hs
  obtain ⟨⟨whole, s₁⟩, hwhole, heq⟩ := Option.map_eq_some_iff.mp hs
  obtain ⟨rfl, rfl⟩ := Prod.mk.inj heq
  obtain ⟨hsuffix₁, u₁, hwhole', h₁⟩ := blind_wholePart? h hwhole
  obtain ⟨hsuffix₂, hfraction, h₂⟩ := blind_fractionPart?.optionalPart h₁
  obtain ⟨hsuffix₃, hexponent, h₃⟩ := blind_exponentPart?.optionalPart h₂
  refine ⟨hsuffix₃.trans (hsuffix₂.trans hsuffix₁), _, ?_, h₃⟩
  unfold unsigned?
  rw [hwhole', hfraction, hexponent]
  rfl

theorem blind_numeral? : Blind numeral? := by
  intro s u n rest h hs
  have hsign := h.head?_eq_some_iff (show ¬ CodePoint.IsBreak ('-' : CodePoint) by decide)
  rw [numeral?_eq] at hs ⊢
  by_cases hminus : s.head? = some ('-' : CodePoint)
  · obtain ⟨t, rfl⟩ := List.head?_eq_some_iff.mp hminus
    obtain ⟨t', rfl, h'⟩ := h.exists_cons (by decide)
    rw [if_pos hminus] at hs
    rw [if_pos (hsign.mp hminus)]
    exact (blind_unsigned? true).behind h' _ hs
  · rw [if_neg hminus] at hs
    rw [if_neg (mt hsign.mpr hminus)]
    exact blind_unsigned? false h hs

/-! ### Escapes -/

/-- The number of a numeric escape, from behind its letter on, if something follows it. -/
def escapedNumber? : Text → Option (Nat × Text)
  | h₁ :: h₂ :: h₃ :: h₄ :: behind =>
    if behind.isEmpty then none else (hexNumber? h₁ h₂ h₃ h₄).map (·, behind)
  | _ => none

theorem hexDigit?_of_isBreak {c : CodePoint} (h : c.IsBreak) : c.hexDigit? = none := by
  rcases h with rfl | rfl <;> decide

/-- A number in hexadecimal digits holds no line end. -/
theorem not_isBreak_of_hexNumber? {a b c d : CodePoint} {n : Nat} (h : hexNumber? a b c d = some n) :
    ∀ e ∈ [a, b, c, d], ¬ e.IsBreak := by
  intro e he hbreak
  have hnone := hexDigit?_of_isBreak hbreak
  unfold hexNumber? at h
  simp only [Option.bind_eq_bind, Option.bind_eq_some_iff] at h
  obtain ⟨_, ha, _, hb, _, hc, _, hd, -⟩ := h
  simp only [List.mem_cons, List.not_mem_nil, or_false] at he
  rcases he with rfl | rfl | rfl | rfl
  · exact nomatch hnone.symm.trans ha
  · exact nomatch hnone.symm.trans hb
  · exact nomatch hnone.symm.trans hc
  · exact nomatch hnone.symm.trans hd

theorem escapedNumber?_eq_some_iff {t : Text} {n : Nat} {behind : Text} :
    escapedNumber? t = some (n, behind) ↔
      behind ≠ [] ∧ ∃ a b c d, t = [a, b, c, d] ++ behind ∧ hexNumber? a b c d = some n := by
  constructor
  · intro h
    match t, h with
    | a :: b :: c :: d :: t, h =>
      by_cases hend : t.isEmpty
      · rw [escapedNumber?, if_pos hend] at h
        exact nomatch h
      · rw [escapedNumber?, if_neg hend] at h
        obtain ⟨m, hm, heq⟩ := Option.map_eq_some_iff.mp h
        obtain ⟨rfl, rfl⟩ := Prod.mk.inj heq
        exact ⟨fun hnil => hend (List.isEmpty_iff.mpr hnil), a, b, c, d, rfl, hm⟩
  · rintro ⟨hend, a, b, c, d, rfl, hn⟩
    change (if behind.isEmpty then none else (hexNumber? a b c d).map (·, behind)) = some (n, behind)
    rw [if_neg (fun h => hend (List.isEmpty_iff.mp h)), hn]
    rfl

theorem blind_escapedNumber? : Blind escapedNumber? := by
  intro s u n behind h hs
  obtain ⟨hend, a, b, c, d, rfl, hn⟩ := escapedNumber?_eq_some_iff.mp hs
  obtain ⟨behind', rfl, h'⟩ := h.exists_append (not_isBreak_of_hexNumber? hn)
  have hnumber : escapedNumber? ([a, b, c, d] ++ behind') = some (n, behind') :=
    escapedNumber?_eq_some_iff.mpr ⟨mt h'.eq_nil_iff.mpr hend, a, b, c, d, rfl, hn⟩
  exact ⟨List.suffix_append _ _, behind', hnumber, h'⟩

theorem letterEscape?_of_isBreak {c : CodePoint} (h : c.IsBreak) : letterEscape? c = none := by
  rcases h with rfl | rfl <;> decide

end Json

end LitmusGraph
