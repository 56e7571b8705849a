import LitmusGraph.Proofs.Json.Parts
import LitmusGraph.Proofs.Json.Steps
import Mathlib.Data.List.Find

/-!
# Line ends in JSON

A carriage return and a line feed are blanks between the parts of a value, and a fault inside a part,
be it a string, an escape, a number or a name. Where a text has the one, a text with the same lines has
a blank or the same fault as well. So two texts with the same lines hold the same value, or are wrong
in the same way, at whatever depth; only the place of a fault may differ.

* `Agree` compares what two readers took off the front of two texts, and holds them to leave the end of
  their text, which keeps the bounds of the loops in reach.
* The bound of a loop is the length of the text, which is not the same for the two, so the two loops
  run with a bound each.

Results:
* `agree_readString`, `agree_readAtom`, `agree_readValue`: strings, names and numbers, values.
* `decode_of_sameLines`: whole texts.
-/

namespace LitmusGraph

namespace Json

open Text (SameLines)

/-! ### Results that agree -/

/-- The reason to stop is the same, if not the place. -/
inductive Stop.Alike : Stop → Stop → Prop where
  /-- Both texts leave the grammar in the same way. -/
  | malformed (fault : Fault) (s u : Text) : Alike (.malformed fault s) (.malformed fault u)
  /-- Both texts hold a whole number with too many digits. -/
  | tooManyDigits (count : Nat) : Alike (.tooManyDigits count) (.tooManyDigits count)
  /-- Both texts hold a value that lies too deep. -/
  | tooDeep (container : Container) : Alike (.tooDeep container) (.tooDeep container)

theorem Stop.Alike.refl (e : Stop) : e.Alike e := by
  cases e with
  | malformed fault rest => exact .malformed fault rest rest
  | tooManyDigits count => exact .tooManyDigits count
  | tooDeep container => exact .tooDeep container

/-- The same was read of `s` and of `u`: the same value, each text left being the end of its own and
with the same lines as the other, or nothing for the same reason. -/
inductive Agree {α : Type} (s u : Text) :
    Except Stop (α × Text) → Except Stop (α × Text) → Prop where
  /-- The same value was read. -/
  | ok (a : α) {rest rest' : Text} (hs : rest <:+ s) (hu : rest' <:+ u) (h : SameLines rest rest') :
    Agree s u (.ok (a, rest)) (.ok (a, rest'))
  /-- Nothing was read. -/
  | error {e e' : Stop} (h : e.Alike e') : Agree s u (.error e) (.error e')

namespace Agree

variable {α β : Type} {s s' u u' : Text} {r r' : Except Stop (α × Text)}

theorem malformed (fault : Fault) (t t' : Text) :
    Agree s u (.error (.malformed fault t) : Except Stop (α × Text)) (.error (.malformed fault t')) :=
  .error (.malformed fault t t')

/-- What agrees on ends of texts agrees on the texts. -/
theorem mono (h : Agree s u r r') (hs : s <:+ s') (hu : u <:+ u') : Agree s' u' r r' := by
  cases h with
  | ok a hrest hrest' h => exact .ok a (hrest.trans hs) (hrest'.trans hu) h
  | error h => exact .error h

/-- The same of both, with a code point in front. -/
theorem cons (h : Agree s u r r') (c d : CodePoint) : Agree (c :: s) (d :: u) r r' :=
  h.mono (List.suffix_cons c s) (List.suffix_cons d u)

theorem map (h : Agree s u r r') (f : α → β) :
    Agree s u (r.map fun (a, rest) => (f a, rest)) (r'.map fun (a, rest) => (f a, rest)) := by
  cases h with
  | ok a hs hu h => exact .ok (f a) hs hu h
  | error h => exact .error h

/-- Readers that read on behind what agrees need agree on the texts left only. -/
theorem readOn {next next' : α → Reader β} (h : Agree s u r r')
    (hnext : ∀ a {rest rest' : Text}, rest <:+ s → rest' <:+ u → SameLines rest rest' →
      Agree rest rest' (next a rest) (next' a rest')) :
    Agree s u (Json.readOn r next) (Json.readOn r' next') := by
  cases h with
  | ok a hs hu h => exact (hnext a hs hu h).mono hs hu
  | error h => exact .error h

end Agree

/-! ### Strings -/

section Equations

variable {opening read t : Text} {lead : Bool} {c : CodePoint}

theorem readString_quote : readString opening read lead ('"' :: t) = .ok (read.reverse, t) := by
  rw [readString.eq_def]
  exact if_pos rfl

theorem readString_control (hc : c.val < 0x20) :
    readString opening read lead (c :: t) = .error (.malformed .controlCharacter (c :: t)) := by
  have hquote : c ≠ ('"' : CodePoint) := by
    rintro rfl
    exact absurd hc (by decide)
  rw [readString.eq_def]
  simp only [hquote, hc, if_true, if_false]

theorem readString_plain (hquote : c ≠ ('"' : CodePoint)) (hc : ¬ c.val < 0x20)
    (hslash : c ≠ ('\\' : CodePoint)) :
    readString opening read lead (c :: t) = readString opening (c :: read) false t := by
  rw [readString.eq_def]
  simp only [hquote, hc, hslash, if_true, if_false, ne_eq, not_false_eq_true]

theorem readString_numeric :
    readString opening read lead ('\\' :: 'u' :: t) =
      match escapedNumber? t with
      | some (n, behind) =>
        readString opening (pushEscape read lead (CodePoint.ofNat n))
          (CodePoint.ofNat n).isLeadSurrogate behind
      | none => .error (.malformed .malformedEscape ('u' :: t)) := by
  match t with
  | [] => rfl
  | [_] => rfl
  | [_, _] => rfl
  | [_, _, _] => rfl
  | [_, _, _, _] => rfl
  | h₁ :: h₂ :: h₃ :: h₄ :: c :: behind =>
    have hquote : ('\\' : CodePoint) ≠ ('"' : CodePoint) := by decide
    have hnumber : escapedNumber? (h₁ :: h₂ :: h₃ :: h₄ :: c :: behind) =
        (hexNumber? h₁ h₂ h₃ h₄).map (·, c :: behind) := rfl
    rw [readString.eq_def, hnumber]
    cases hn : hexNumber? h₁ h₂ h₃ h₄ with
    | none => simp [hn, hquote]
    | some n => simp [hn, hquote]

theorem readString_letter (hc : c ≠ ('u' : CodePoint)) :
    readString opening read lead ('\\' :: c :: t) =
      match letterEscape? c with
      | some e => readString opening (e :: read) false t
      | none => .error (.malformed .unknownEscape ('\\' :: c :: t)) := by
  rw [readString.eq_def]
  exact if_neg hc

/-- A line end behind a backslash is no escape. -/
theorem readString_escape_of_isBreak (hc : c.IsBreak) :
    readString opening read lead ('\\' :: c :: t) =
      .error (.malformed .unknownEscape ('\\' :: c :: t)) := by
  rw [readString_letter (hc.ne (by decide)), letterEscape?_of_isBreak hc]

end Equations

/-- An escape is read alike if what follows it is. -/
theorem agree_readString_escape {opening opening' s u : Text} (h : SameLines s u)
    (follows : ∀ {s' u' : Text} (read : Text) (lead : Bool), s'.length ≤ s.length →
      SameLines s' u' → Agree s' u' (readString opening read lead s') (readString opening' read lead u'))
    (read : Text) (lead : Bool) :
    Agree s u (readString opening read lead ('\\' :: s))
      (readString opening' read lead ('\\' :: u)) := by
  rcases h.split with ⟨rfl, rfl⟩ | ⟨c, s, u, rfl, rfl, h'⟩ | ⟨c, s, d, u, rfl, rfl, hc, hd⟩
  · exact .malformed _ _ _
  · by_cases hnumeric : c = ('u' : CodePoint)
    · subst hnumeric
      rw [readString_numeric, readString_numeric]
      cases hs : escapedNumber? s with
      | none =>
        rw [blind_escapedNumber?.eq_none h' hs]
        exact .malformed _ _ _
      | some found =>
        obtain ⟨hsuffix, behind', hu, hbehind⟩ := blind_escapedNumber? h' hs
        have hsuffix' := blind_escapedNumber?.suffix hu
        rw [hu]
        exact ((follows _ _ (hsuffix.length_le.trans (by simp)) hbehind).mono hsuffix hsuffix').cons _ _
    · rw [readString_letter hnumeric, readString_letter hnumeric]
      cases letterEscape? c with
      | none => exact .malformed _ _ _
      | some e => exact (follows _ _ (by simp) h').cons _ _
  · rw [readString_escape_of_isBreak hc, readString_escape_of_isBreak hd]
    exact .malformed _ _ _

/-- **A string** is read alike of texts with the same lines: a line end in it is a fault. -/
theorem agree_readString (opening opening' : Text) {s u : Text} (read : Text) (lead : Bool)
    (h : SameLines s u) :
    Agree s u (readString opening read lead s) (readString opening' read lead u) := by
  induction hn : s.length using Nat.strong_induction_on generalizing s u read lead with
  | _ n ih =>
    subst hn
    rcases h.split with ⟨rfl, rfl⟩ | ⟨c, s, u, rfl, rfl, h'⟩ | ⟨c, s, d, u, rfl, rfl, hc, hd⟩
    · exact .malformed _ _ _
    · have follows {s' u' : Text} (read : Text) (lead : Bool) (hle : s'.length ≤ s.length)
          (h' : SameLines s' u') :
          Agree s' u' (readString opening read lead s') (readString opening' read lead u') :=
        ih _ (Nat.lt_succ_of_le hle) read lead h' rfl
      by_cases hquote : c = ('"' : CodePoint)
      · subst hquote
        rw [readString_quote, readString_quote]
        exact .ok _ (List.suffix_cons _ _) (List.suffix_cons _ _) h'
      by_cases hcontrol : c.val < 0x20
      · rw [readString_control hcontrol, readString_control hcontrol]
        exact .malformed _ _ _
      by_cases hslash : c = ('\\' : CodePoint)
      · subst hslash
        exact (agree_readString_escape h' follows read lead).cons _ _
      · rw [readString_plain hquote hcontrol hslash, readString_plain hquote hcontrol hslash]
        exact (follows _ _ (Nat.le_refl _) h').cons _ _
    · have hcontrol {e : CodePoint} (he : e.IsBreak) : e.val < 0x20 := by
        rcases he with rfl | rfl <;> decide
      rw [readString_control (hcontrol hc), readString_control (hcontrol hd)]
      exact .malformed _ _ _

/-! ### Names and numbers -/

/-- A word without line ends stands in front of both texts or of none. -/
theorem isPrefixOf_eq {word s u : Text} (hword : ∀ c ∈ word, ¬ c.IsBreak) (h : SameLines s u) :
    word.isPrefixOf s = word.isPrefixOf u := by
  have front {s u : Text} (h : SameLines s u) (hs : word <+: s) : word <+: u := by
    obtain ⟨s', rfl⟩ := hs
    obtain ⟨u', rfl, -⟩ := h.exists_append hword
    exact List.prefix_append _ _
  rw [Bool.eq_iff_iff, List.isPrefixOf_iff_prefix, List.isPrefixOf_iff_prefix]
  exact ⟨front h, front h.symm⟩

theorem not_isBreak_of_mem_names : ∀ name ∈ names, ∀ c ∈ name.1, ¬ c.IsBreak := by
  unfold names
  simp only [List.forall_mem_cons]
  refine ⟨?_, ?_, ?_, ?_, ?_, ?_, nofun⟩ <;> decide

theorem agree_readAtom {s u : Text} (h : SameLines s u) : Agree s u (readAtom s) (readAtom u) := by
  have hnames : (names.find? fun name => name.1.isPrefixOf s) =
      names.find? fun name => name.1.isPrefixOf u :=
    List.find?_congr fun name hname => isPrefixOf_eq (not_isBreak_of_mem_names name hname) h
  unfold readAtom
  rw [← hnames]
  cases hname : names.find? fun name => name.1.isPrefixOf s with
  | some found =>
    obtain ⟨name, value⟩ := found
    have hfront := List.find?_some hname
    change name.isPrefixOf s = true at hfront
    obtain ⟨s', rfl⟩ := List.isPrefixOf_iff_prefix.mp hfront
    have hbreaks := not_isBreak_of_mem_names _ (List.mem_of_find?_eq_some hname)
    obtain ⟨u', rfl, h'⟩ := h.exists_append hbreaks
    simp only [List.drop_left]
    exact .ok value (List.suffix_append _ _) (List.suffix_append _ _) h'
  | none =>
    cases hs : numeral? s with
    | none =>
      rw [blind_numeral?.eq_none h hs]
      exact .malformed _ _ _
    | some found =>
      obtain ⟨n, rest⟩ := found
      obtain ⟨hsuffix, rest', hu, h'⟩ := blind_numeral? h hs
      simp only [hu]
      cases n.value with
      | ok value => exact .ok value hsuffix (blind_numeral?.suffix hu) h'
      | error e => exact .error (.refl e)

/-! ### Blanks -/

theorem skipGap_suffix (t : Text) : skipGap t <:+ t := List.dropWhile_suffix _

theorem sameLines_skipGap {s u : Text} (h : SameLines s u) : SameLines (skipGap s) (skipGap u) :=
  h.dropWhile true fun c hc => by rcases hc with rfl | rfl <;> decide

/-- Behind the blanks both texts are at their end, or the same code point follows. -/
theorem skipGap_cases {s u : Text} (h : SameLines s u) :
    (skipGap s = [] ∧ skipGap u = []) ∨
      ∃ c t t', skipGap s = c :: t ∧ skipGap u = c :: t' ∧ SameLines t t' ∧
        c :: t <:+ s ∧ c :: t' <:+ u := by
  have h' := sameLines_skipGap h
  rcases h'.split with hnil | ⟨c, t, t', hs, hu, h'⟩ | ⟨c, t, d, t', hs, -, hc, -⟩
  · exact .inl hnil
  · exact .inr ⟨c, t, t', hs, hu, h', hs ▸ skipGap_suffix s, hu ▸ skipGap_suffix u⟩
  · have hgap : isGap c = true := by rcases hc with rfl | rfl <;> decide
    have hkept := List.head?_dropWhile_not isGap s
    rw [show s.dropWhile isGap = c :: t from hs] at hkept
    simp [hgap] at hkept

theorem skipGap_suffix_of_cons {c : CodePoint} {s t : Text} (h : c :: t <:+ s) : skipGap t <:+ s :=
  (skipGap_suffix t).trans ((List.suffix_cons c t).trans h)

theorem length_skipGap_lt {c : CodePoint} {s t : Text} (h : c :: t <:+ s) :
    (skipGap t).length < s.length :=
  Nat.lt_of_lt_of_le (Nat.lt_succ_of_le (skipGap_suffix t).length_le) h.length_le

/-! ### Arrays and objects -/

/-- The readers agree on texts below these lengths that have the same lines. -/
def AgreeBelow {α : Type} (n m : Nat) (item item' : Reader α) : Prop :=
  ∀ ⦃s u : Text⦄, s.length < n → u.length < m → SameLines s u → Agree s u (item s) (item' u)

section Items

variable {α : Type} {item item' : Reader α} {n m : Nat} {close : CodePoint}

/-- Behind an item both readers go on alike if they do so behind a comma. -/
theorem agree_readBehindItem {b b' : Nat} {read : List α} {s u : Text}
    (follows : ∀ {s' u' : Text}, s'.length < s.length → u'.length < u.length → SameLines s' u' →
      Agree s' u' (readItems item close b read s') (readItems item' close b' read u'))
    (h : SameLines s u) :
    Agree s u (readBehindItem item close b read s) (readBehindItem item' close b' read u) := by
  unfold readBehindItem
  rcases skipGap_cases h with ⟨hs, hu⟩ | ⟨c, t, t', hs, hu, h', hsuffix, hsuffix'⟩
  · rw [hs, hu]
    exact .malformed _ _ _
  rw [hs, hu]
  dsimp only
  by_cases hend : c = close
  · rw [if_pos hend, if_pos hend]
    exact .ok _ ((List.suffix_cons c t).trans hsuffix) ((List.suffix_cons c t').trans hsuffix') h'
  rw [if_neg hend, if_neg hend]
  by_cases hcomma : c = (',' : CodePoint)
  · rw [if_pos hcomma, if_pos hcomma]
    exact (follows (length_skipGap_lt hsuffix) (length_skipGap_lt hsuffix') (sameLines_skipGap h')).mono
      (skipGap_suffix_of_cons hsuffix) (skipGap_suffix_of_cons hsuffix')
  · rw [if_neg hcomma, if_neg hcomma]
    exact .malformed _ _ _

theorem agree_readItems (hitem : AgreeBelow n m item item') {b b' : Nat} (hb : b ≤ n) (hb' : b' ≤ m)
    (read : List α) {s u : Text} (hs : s.length < b) (hu : u.length < b') (h : SameLines s u) :
    Agree s u (readItems item close b read s) (readItems item' close b' read u) := by
  induction b generalizing b' read s u with
  | zero => exact absurd hs (Nat.not_lt_zero _)
  | succ b ih =>
    obtain _ | b' := b'
    · exact absurd hu (Nat.not_lt_zero _)
    have hagree := hitem (Nat.lt_of_lt_of_le hs hb) (Nat.lt_of_lt_of_le hu hb') h
    rw [readItems_succ, readItems_succ]
    refine hagree.readOn fun a rest rest' hrest hrest' h => agree_readBehindItem ?_ h
    intro s' u' hs' hu' h'
    exact ih (Nat.le_of_succ_le hb) (Nat.le_of_succ_le hb') _
      (Nat.lt_of_lt_of_le hs' (hrest.length_le.trans (Nat.le_of_lt_succ hs)))
      (Nat.lt_of_lt_of_le hu' (hrest'.length_le.trans (Nat.le_of_lt_succ hu))) h'

theorem agree_readBody (hitem : AgreeBelow n m item item') (hclose : ¬ close.IsBreak) :
    AgreeBelow n m (readBody item close n) (readBody item' close m) := by
  intro s u hs hu h
  have h' := sameLines_skipGap h
  have hgap := skipGap_suffix s
  have hgap' := skipGap_suffix u
  have hhead := h'.head?_eq_some_iff hclose
  unfold readBody
  dsimp only
  by_cases hend : (skipGap s).head? = some close
  · rw [if_pos hend, if_pos (hhead.mp hend)]
    obtain ⟨t, ht⟩ := List.head?_eq_some_iff.mp hend
    rw [ht] at h' hgap ⊢
    obtain ⟨t', ht', h''⟩ := h'.exists_cons hclose
    rw [ht'] at hgap' ⊢
    exact .ok [] ((List.suffix_cons _ _).trans hgap) ((List.suffix_cons _ _).trans hgap') h''
  · rw [if_neg hend, if_neg (mt hhead.mpr hend)]
    exact (agree_readItems hitem (Nat.le_refl _) (Nat.le_refl _) []
      (Nat.lt_of_le_of_lt hgap.length_le hs) (Nat.lt_of_le_of_lt hgap'.length_le hu) h').mono
      hgap hgap'

end Items

theorem agree_readBehindName {n m : Nat} {value value' : Reader Json}
    (hvalue : AgreeBelow n m value value') (name : Text) :
    AgreeBelow n m (readBehindName value name) (readBehindName value' name) := by
  intro s u hs hu h
  unfold readBehindName
  rcases skipGap_cases h with ⟨hs', hu'⟩ | ⟨c, t, t', hs', hu', h', hsuffix, hsuffix'⟩
  · rw [hs', hu']
    exact .malformed _ _ _
  rw [hs', hu']
  dsimp only
  by_cases hcolon : c = (':' : CodePoint)
  · rw [if_pos hcolon, if_pos hcolon]
    have hagree := hvalue ((length_skipGap_lt hsuffix).trans hs) ((length_skipGap_lt hsuffix').trans hu)
      (sameLines_skipGap h')
    exact (hagree.map (name, ·)).mono (skipGap_suffix_of_cons hsuffix) (skipGap_suffix_of_cons hsuffix')
  · rw [if_neg hcolon, if_neg hcolon]
    exact .malformed _ _ _

theorem agree_readMember {n m : Nat} {value value' : Reader Json}
    (hvalue : AgreeBelow n m value value') : AgreeBelow n m (readMember value) (readMember value') := by
  intro s u hs hu h
  rcases h.split with ⟨rfl, rfl⟩ | ⟨c, s, u, rfl, rfl, h'⟩ | ⟨c, s, d, u, rfl, rfl, hc, hd⟩
  · exact .malformed _ _ _
  · rw [readMember_cons, readMember_cons]
    by_cases hquote : c = ('"' : CodePoint)
    · rw [if_pos hquote, if_pos hquote]
      refine ((agree_readString (c :: s) (c :: u) [] false h').cons c c).readOn ?_
      intro name rest rest' hrest hrest' h
      exact agree_readBehindName hvalue name (Nat.lt_of_le_of_lt hrest.length_le hs)
        (Nat.lt_of_le_of_lt hrest'.length_le hu) h
    · rw [if_neg hquote, if_neg hquote]
      exact .malformed _ _ _
  · rw [readMember_cons, readMember_cons, if_neg (hc.ne (by decide)), if_neg (hd.ne (by decide))]
    exact .malformed _ _ _

/-! ### Values -/

/-- A value is read alike if the values inside it are. -/
theorem agree_readValue_of_inner {b b' levels : Nat} {s u : Text}
    (hinner : ∀ l, levels = l + 1 → AgreeBelow b b' (readValue b l) (readValue b' l))
    (hs : s.length ≤ b) (hu : u.length ≤ b') (h : SameLines s u) :
    Agree s u (readValue b levels s) (readValue b' levels u) := by
  rcases h.split with ⟨rfl, rfl⟩ | ⟨c, s, u, rfl, rfl, h'⟩ | ⟨c, s, d, u, rfl, rfl, hc, hd⟩
  · rw [readValue_nil, readValue_nil]
    exact .malformed _ _ _
  · rw [readValue_cons, readValue_cons]
    by_cases hquote : c = ('"' : CodePoint)
    · rw [if_pos hquote, if_pos hquote]
      exact ((agree_readString _ _ [] false h').map string).cons _ _
    rw [if_neg hquote, if_neg hquote]
    by_cases harray : c = ('[' : CodePoint)
    · rw [if_pos harray, if_pos harray]
      cases levels with
      | zero => exact .error (.tooDeep .array)
      | succ l =>
        have hbracket : ¬ CodePoint.IsBreak ']' := by decide
        have hbody := agree_readBody (hinner l rfl) hbracket hs hu h'
        exact (hbody.map array).cons _ _
    rw [if_neg harray, if_neg harray]
    by_cases hobject : c = ('{' : CodePoint)
    · rw [if_pos hobject, if_pos hobject]
      cases levels with
      | zero => exact .error (.tooDeep .object)
      | succ l =>
        have hbrace : ¬ CodePoint.IsBreak '}' := by decide
        have hbody := agree_readBody (agree_readMember (hinner l rfl)) hbrace hs hu h'
        exact (hbody.map fun members => object (Members.ofList members)).cons _ _
    rw [if_neg hobject, if_neg hobject]
    exact agree_readAtom h
  · have hatom (b : Nat) {e : CodePoint} (t : Text) (he : e.IsBreak) :
        readValue b levels (e :: t) = readAtom (e :: t) := by
      rw [readValue_cons, if_neg (he.ne (by decide)), if_neg (he.ne (by decide)),
        if_neg (he.ne (by decide))]
    rw [hatom b s hc, hatom b' u hd]
    exact agree_readAtom h

/-- **A value** is read alike of texts with the same lines, at any depth. -/
theorem agree_readValue (levels : Nat) {b b' : Nat} {s u : Text} (hs : s.length ≤ b)
    (hu : u.length ≤ b') (h : SameLines s u) :
    Agree s u (readValue b levels s) (readValue b' levels u) := by
  induction levels generalizing s u with
  | zero => exact agree_readValue_of_inner nofun hs hu h
  | succ levels ih =>
    refine agree_readValue_of_inner ?_ hs hu h
    rintro l ⟨⟩ s u hs hu h
    exact ih hs.le hu.le h

/-! ### Documents -/

namespace DecodeError

/-- The error with another place. -/
def movedTo (place : Place) : DecodeError → DecodeError
  | malformed fault _ => malformed fault place
  | tooManyDigits count => tooManyDigits count
  | tooDeep container => tooDeep container

end DecodeError

/-- A stop for the same reason is the same error, but for the place. -/
theorem Stop.Alike.movedTo_locate {e e' : Stop} (h : e.Alike e') (s u : Text) (place : Place) :
    (e.locate s).movedTo place = (e'.locate u).movedTo place := by
  cases h <;> rfl

/-- **What a text holds does not depend on how its lines end**, and neither does what is wrong with
it, but for the place. -/
theorem decode_of_sameLines {s u : Text} (h : SameLines s u) (levels : Nat) (place : Place) :
    (decode levels s).mapError (·.movedTo place) = (decode levels u).mapError (·.movedTo place) := by
  have hmark := h.head?_eq_some_iff (show ¬ CodePoint.IsBreak { val := 0xFEFF } by decide)
  unfold decode readDocument
  by_cases hs : s.head? = some ({ val := 0xFEFF } : CodePoint)
  · rw [if_pos hs, if_pos (hmark.mp hs)]
    rfl
  rw [if_neg hs, if_neg (mt hmark.mpr hs)]
  have hagree := agree_readValue levels (skipGap_suffix s).length_le (skipGap_suffix u).length_le
    (sameLines_skipGap h)
  generalize readValue s.length levels (skipGap s) = r at hagree ⊢
  generalize readValue u.length levels (skipGap u) = r' at hagree ⊢
  cases hagree with
  | error h => exact congrArg Except.error (h.movedTo_locate s u place)
  | @ok value rest rest' hrest hrest' h =>
    dsimp only
    rcases skipGap_cases h with ⟨hs, hu⟩ | ⟨c, t, t', hs, hu, -, -, -⟩
    · rw [hs, hu]
      rfl
    · rw [hs, hu]
      rfl

/-- A text holds a value if any text with the same lines does. -/
theorem decode_eq_ok_iff_of_sameLines {s u : Text} (h : SameLines s u) {levels : Nat} (value : Json) :
    decode levels s = .ok value ↔ decode levels u = .ok value := by
  have transfer {s u : Text} (h : SameLines s u) (hs : decode levels s = .ok value) :
      decode levels u = .ok value := by
    have hmoved := decode_of_sameLines h levels (.ofIndex [] 0)
    rw [hs] at hmoved
    cases hu : decode levels u with
    | ok value' =>
      rw [hu] at hmoved
      exact hmoved.symm
    | error e =>
      rw [hu] at hmoved
      exact nomatch hmoved
  exact ⟨transfer h, transfer h.symm⟩

/-- A text that leaves the grammar does so in the same way however its lines end. -/
theorem exists_malformed_of_sameLines {s u : Text} {levels : Nat} {fault : Fault} {place : Place}
    (h : SameLines s u) (hs : decode levels s = .error (.malformed fault place)) :
    ∃ place', decode levels u = .error (.malformed fault place') := by
  have hmoved := decode_of_sameLines h levels place
  rw [hs] at hmoved
  cases hu : decode levels u with
  | ok value =>
    rw [hu] at hmoved
    exact nomatch hmoved
  | error e =>
    rw [hu] at hmoved
    cases e with
    | malformed fault' place' =>
      obtain ⟨rfl, -⟩ := DecodeError.malformed.inj (Except.error.inj hmoved)
      exact ⟨place', rfl⟩
    | tooManyDigits count => exact nomatch hmoved
    | tooDeep container => exact nomatch hmoved

end Json

end LitmusGraph
