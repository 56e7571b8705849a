import LitmusGraph.Text.Basic
import Mathlib.Data.List.TakeWhile

/-!
# Reading text back

The functions here undo the ones that write text: `Text.toInt` reads a number, `Text.lines` takes a
text apart into lines, `Text.tokens` finds the tokens between blanks, and `Text.between` takes away
what stands in front and behind.

Results:
* `toInt_ofInt`: every number is read back from its decimal digits.
* `append_underscore_ofNat_inj`, `ofNat_append_inj`: a number is told apart from a name in front of it,
  and from what stands behind it.
* `lines_unlines`, `lineFeeds_unlines`: lines without line feeds are read back from the text that they
  make up, and its line feeds count them.
* `tokens_join_arrow`: the tokens of a chain are read back.
* `between_append`, `cut?_append`, `takeWhile_append_of_stop`: the parts of a text are read back when
  what stands around them is known, or when a code point ends them that they do not hold.
-/

namespace LitmusGraph

/-! ## Tokens -/

namespace CodePoint

/-- A letter or digit of the ASCII range, or an underscore. -/
def isWord (c : CodePoint) : Bool :=
  c.isDigit || (0x41 ≤ c.val && c.val ≤ 0x5A) || (0x61 ≤ c.val && c.val ≤ 0x7A) || c.val = 0x5F

end CodePoint

namespace Text

/-- A token: one or more letters, digits and underscores. -/
def IsToken (t : Text) : Prop := t ≠ [] ∧ ∀ c ∈ t, c.isWord = true

instance (t : Text) : Decidable t.IsToken := inferInstanceAs (Decidable (_ ∧ _))

theorem IsToken.not_mem {t : Text} (h : t.IsToken) {c : CodePoint} (hc : c.isWord = false) :
    c ∉ t := by
  intro hm
  rw [h.2 c hm] at hc
  exact Bool.noConfusion hc

/-! ## Parts of a text -/

/-- What is left of a text without as much as `lead` in front and as much as `tail` behind. -/
def between (lead tail t : Text) : Text :=
  (t.drop lead.length).take (t.length - lead.length - tail.length)

theorem between_append (lead t tail : Text) : between lead tail (lead ++ (t ++ tail)) = t := by
  have hlen : (lead ++ (t ++ tail)).length - lead.length - tail.length = t.length := by
    simp only [List.length_append]
    omega
  unfold between
  rw [hlen, List.drop_left, List.take_left]

/-- A run of code points ends where the first one stands that is not of its kind. -/
theorem takeWhile_append_of_stop {p : CodePoint → Bool} {t rest : Text} (h : ∀ c ∈ t, p c = true)
    (hrest : rest.takeWhile p = []) : (t ++ rest).takeWhile p = t := by
  rw [List.takeWhile_append_of_pos h, hrest, List.append_nil]

theorem dropWhile_append_of_stop {p : CodePoint → Bool} {t rest : Text} (h : ∀ c ∈ t, p c = true)
    (hrest : rest.takeWhile p = []) : (t ++ rest).dropWhile p = rest := by
  have hsplit := List.takeWhile_append_dropWhile (p := p) (l := rest)
  rw [hrest, List.nil_append] at hsplit
  rw [List.dropWhile_append_of_pos h, hsplit]

theorem cut?_append {c : CodePoint} {front : Text} (h : c ∉ front) (rest : Text) :
    cut? c (front ++ c :: rest) = some (front, rest) := by
  have hp : ∀ a ∈ front, (a != c) = true := fun a ha => bne_iff_ne.mpr fun e => h (e ▸ ha)
  have hstop : (c :: rest).takeWhile (· != c) = [] := List.takeWhile_cons_of_neg (by simp)
  unfold cut?
  rw [dropWhile_append_of_stop hp hstop, takeWhile_append_of_stop hp hstop]

theorem cut?_eq_none {c : CodePoint} {t : Text} (h : c ∉ t) : cut? c t = none := by
  have hp : ∀ a ∈ t, (a != c) = true := fun a ha => bne_iff_ne.mpr fun e => h (e ▸ ha)
  unfold cut?
  rw [List.dropWhile_eq_nil_iff.mpr hp]

/-- The pieces between separators hold no separator. -/
theorem not_mem_of_mem_splitOn {c : CodePoint} {t piece : Text}
    (h : piece ∈ List.splitOn c t) : c ∉ piece := by
  induction t generalizing piece with
  | nil =>
    obtain rfl := List.mem_singleton.mp h
    exact List.not_mem_nil
  | cons d t ih =>
    rw [List.splitOn_cons_eq_if_modifyHead] at h
    split at h
    · rcases List.mem_cons.mp h with rfl | h
      · exact List.not_mem_nil
      · exact ih h
    · next hne =>
      have hcd : c ≠ d := fun e => hne (beq_iff_eq.mpr e.symm)
      cases hsplit : List.splitOn c t with
      | nil =>
        rw [hsplit] at h
        exact nomatch h
      | cons first rest =>
        rw [hsplit] at h ih
        rcases List.mem_cons.mp h with rfl | h
        · exact List.not_mem_cons_of_ne_of_not_mem hcd (ih List.mem_cons_self)
        · exact ih (List.mem_cons_of_mem _ h)

/-! ## Numbers -/

/-- The number that decimal digits write, with a minus sign in front or without. -/
def toInt : Text → Int
  | [] => 0
  | c :: rest => if c = ('-' : CodePoint) then -(digitsValue rest : Int) else digitsValue (c :: rest)

theorem digitsValue_ofNat (n : Nat) : digitsValue (ofNat n) = n := by
  unfold digitsValue ofNat
  rw [List.foldl_map]
  exact Nat.ofDigitChars_eq_foldl.symm.trans Nat.ofDigitChars_ten_toDigits

theorem isDigit_of_mem_ofNat {n : Nat} {c : CodePoint} (h : c ∈ ofNat n) : c.isDigit = true := by
  obtain ⟨d, hd, rfl⟩ := List.mem_map.mp h
  have hdigit := Nat.isDigit_of_mem_toDigits (by decide) (by decide) hd
  unfold CodePoint.isDigit
  rw [CodePoint.val_ofChar]
  exact hdigit

theorem ofNat_ne_nil (n : Nat) : ofNat n ≠ [] := fun h =>
  Nat.toDigits_ne_nil (List.map_eq_nil_iff.mp h)

/-- **Numbers are read back** from their decimal digits, negative ones too. -/
theorem toInt_ofInt (n : Int) : toInt (ofInt n) = n := by
  cases n with
  | negSucc n =>
    show -(digitsValue (ofNat (n + 1)) : Int) = Int.negSucc n
    rw [digitsValue_ofNat]
    rfl
  | ofNat n =>
    show toInt (ofNat n) = n
    cases h : ofNat n with
    | nil => exact absurd h (ofNat_ne_nil n)
    | cons c rest =>
      have hc : c ≠ ('-' : CodePoint) := by
        rintro rfl
        have hdigit := isDigit_of_mem_ofNat (n := n) (h ▸ List.mem_cons_self)
        exact absurd hdigit (by decide)
      show (if c = ('-' : CodePoint) then _ else (digitsValue (c :: rest) : Int)) = n
      rw [if_neg hc, ← h, digitsValue_ofNat]

theorem mem_ofInt {n : Int} {c : CodePoint} (h : c ∈ ofInt n) :
    c = ('-' : CodePoint) ∨ c.isDigit = true := by
  cases n with
  | ofNat n => exact Or.inr (isDigit_of_mem_ofNat h)
  | negSucc n =>
    rcases List.mem_cons.mp h with rfl | h
    · exact Or.inl rfl
    · exact Or.inr (isDigit_of_mem_ofNat h)

theorem lineFeed_not_mem_ofInt (n : Int) : ('\n' : CodePoint) ∉ ofInt n := by
  intro h
  rcases mem_ofInt h with h | h
  · exact absurd h (by decide)
  · exact absurd h (by decide)

/-- **A name with a number behind an underscore** tells the name and the number. -/
theorem append_underscore_ofNat_inj {a b : Text} {k l : Nat}
    (h : a ++ "_" ++ ofNat k = b ++ "_" ++ ofNat l) : a = b ∧ k = l := by
  have hdigits (n : Nat) : ∀ c ∈ (ofNat n).reverse, c.isDigit = true :=
    fun c hc => isDigit_of_mem_ofNat (List.mem_reverse.mp hc)
  have hstop (t : Text) : List.takeWhile CodePoint.isDigit ("_" ++ t.reverse : Text) = [] := rfl
  -- Read from the end, the digits are all that stands in front of an underscore.
  have hreverse : (ofNat k).reverse ++ ("_" ++ a.reverse) = (ofNat l).reverse ++ ("_" ++ b.reverse) := by
    have hreverse := congrArg List.reverse h
    simp only [List.reverse_append] at hreverse
    exact hreverse
  have hnumber := congrArg (List.takeWhile CodePoint.isDigit) hreverse
  rw [takeWhile_append_of_stop (hdigits k) (hstop a), takeWhile_append_of_stop (hdigits l) (hstop b)]
    at hnumber
  have hname := congrArg (List.dropWhile CodePoint.isDigit) hreverse
  rw [dropWhile_append_of_stop (hdigits k) (hstop a), dropWhile_append_of_stop (hdigits l) (hstop b)]
    at hname
  refine ⟨List.reverse_inj.mp (List.append_cancel_left hname), ?_⟩
  rw [← digitsValue_ofNat k, List.reverse_inj.mp hnumber, digitsValue_ofNat]

/-- **A number and what stands behind it** are told apart where the latter does not begin with a
digit. -/
theorem ofNat_append_inj {m n : Nat} {t u : Text} (ht : t.takeWhile CodePoint.isDigit = [])
    (hu : u.takeWhile CodePoint.isDigit = []) (h : ofNat m ++ t = ofNat n ++ u) : m = n ∧ t = u := by
  have hdigits (k : Nat) : ∀ c ∈ ofNat k, c.isDigit = true := fun c hc => isDigit_of_mem_ofNat hc
  have hnumber := congrArg (List.takeWhile CodePoint.isDigit) h
  rw [takeWhile_append_of_stop (hdigits m) ht, takeWhile_append_of_stop (hdigits n) hu] at hnumber
  have hrest := congrArg (List.dropWhile CodePoint.isDigit) h
  rw [dropWhile_append_of_stop (hdigits m) ht, dropWhile_append_of_stop (hdigits n) hu] at hrest
  refine ⟨?_, hrest⟩
  rw [← digitsValue_ofNat m, hnumber, digitsValue_ofNat]

/-! ## Lines -/

/-- The lines of a text, each ended by a line feed. -/
def lines (t : Text) : List Text := (List.splitOn ('\n' : CodePoint) t).dropLast

/-- The text that lines make up, a line feed behind each. -/
def unlines (ls : List Text) : Text := ls.flatMap fun l => l ++ "\n"

@[simp] theorem unlines_nil : unlines [] = [] := rfl

theorem unlines_cons (l : Text) (ls : List Text) :
    unlines (l :: ls) = l ++ ('\n' : CodePoint) :: unlines ls := by
  unfold unlines
  rw [List.flatMap_cons, List.append_assoc]
  rfl

theorem splitOn_unlines {ls : List Text} (h : ∀ l ∈ ls, ('\n' : CodePoint) ∉ l) :
    List.splitOn ('\n' : CodePoint) (unlines ls) = ls ++ [[]] := by
  induction ls with
  | nil => rfl
  | cons l ls ih =>
    rw [unlines_cons, List.splitOn_append_cons_self_of_not_mem (h l List.mem_cons_self),
      ih fun m hm => h m (List.mem_cons_of_mem l hm)]
    rfl

/-- **Lines are read back** from the text that they make up. -/
theorem lines_unlines {ls : List Text} (h : ∀ l ∈ ls, ('\n' : CodePoint) ∉ l) :
    lines (unlines ls) = ls := by
  unfold lines
  rw [splitOn_unlines h, List.dropLast_concat]

/-- **Line feeds count lines** that hold none themselves. -/
theorem lineFeeds_unlines {ls : List Text} (h : ∀ l ∈ ls, ('\n' : CodePoint) ∉ l) :
    (unlines ls).lineFeeds = ls.length := by
  induction ls with
  | nil => rfl
  | cons l ls ih =>
    have hline : l.count ('\n' : CodePoint) = 0 := List.count_eq_zero.mpr (h l List.mem_cons_self)
    have hrest : (unlines ls).count ('\n' : CodePoint) = ls.length :=
      ih fun m hm => h m (List.mem_cons_of_mem l hm)
    rw [unlines_cons, lineFeeds, List.count_append, List.count_cons_self, hline, hrest,
      List.length_cons, Nat.zero_add]

/-! ## Chains of tokens -/

/-- A joined text holds nothing that neither the parts nor the separator hold. -/
theorem not_mem_join {c : CodePoint} {sep : Text} (hsep : c ∉ sep) :
    ∀ {parts : List Text}, (∀ p ∈ parts, c ∉ p) → c ∉ join sep parts
  | [], _ => List.not_mem_nil
  | [p], h => by
    rw [join, List.intercalate_singleton]
    exact h p List.mem_cons_self
  | p :: q :: parts, h => by
    have ih := not_mem_join hsep fun r hr => h r (List.mem_cons_of_mem p hr)
    rw [join, List.intercalate_cons_cons, List.mem_append, List.mem_append, not_or, not_or]
    exact ⟨⟨h p List.mem_cons_self, hsep⟩, ih⟩

/-- The tokens between blanks. -/
def tokens (t : Text) : List Text := (List.splitOn (' ' : CodePoint) t).filter fun w => w.IsToken

theorem splitOn_join_arrow : ∀ {ws : List Text}, ws ≠ [] → (∀ w ∈ ws, w.IsToken) →
    List.splitOn (' ' : CodePoint) (join " -> " ws) = ws.intersperse ("->" : Text)
  | [], h, _ => absurd rfl h
  | [w], _, hw => by
    have hblank : (' ' : CodePoint) ∉ w := (hw w List.mem_cons_self).not_mem (by decide)
    show List.splitOn _ ((" -> " : Text).intercalate [w]) = _
    rw [List.intercalate_singleton, List.splitOn_eq_singleton hblank]
    rfl
  | w :: v :: ws, _, hw => by
    have hblank : (' ' : CodePoint) ∉ w := (hw w List.mem_cons_self).not_mem (by decide)
    have ih := splitOn_join_arrow (List.cons_ne_nil v ws) fun u hu => hw u (List.mem_cons_of_mem w hu)
    have hjoin : join " -> " (w :: v :: ws) =
        w ++ (' ' : CodePoint) :: (("->" : Text) ++ (' ' : CodePoint) :: join " -> " (v :: ws)) := by
      show (" -> " : Text).intercalate (w :: v :: ws) = _
      rw [List.intercalate_cons_cons, List.append_assoc]
      rfl
    rw [hjoin, List.splitOn_append_cons_self_of_not_mem hblank,
      List.splitOn_append_cons_self_of_not_mem (by decide), ih]
    rfl

/-- **The tokens of a chain are read back**: arrows are no tokens. -/
theorem tokens_join_arrow {ws : List Text} (hw : ∀ w ∈ ws, w.IsToken) :
    tokens (join " -> " ws) = ws := by
  cases ws with
  | nil => rfl
  | cons w ws =>
    unfold tokens
    rw [splitOn_join_arrow (List.cons_ne_nil w ws) hw]
    induction ws generalizing w with
    | nil => simp [hw w List.mem_cons_self]
    | cons v ws ih =>
      have harrow : ¬ ("->" : Text).IsToken := by decide
      rw [List.intersperse_cons_cons, List.filter_cons_of_pos (by simpa using hw w List.mem_cons_self),
        List.filter_cons_of_neg (by simpa using harrow),
        ih v fun u hu => hw u (List.mem_cons_of_mem w hu)]

end Text

end LitmusGraph
