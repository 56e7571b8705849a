import LitmusGraph.Proofs.Json.LineEnds

/-!
# Levels of nesting

A reader with more levels reads whatever one with fewer levels does, and stops where that stops, unless
that stopped for want of levels. So how many levels are left matters to the texts only that nest deeper.
Nested arrays show that it does matter to those: with as many levels as there are arrays they are read,
and with one level less they are too deep.

Results:
* `deepens_readValue`: more levels make no difference to what is not too deep, by induction on the
  levels.
* `decode_of_le`: the same for whole texts.
* `readValue_nested`: nested arrays are read just when there is a level for each of them.
-/

namespace LitmusGraph

namespace Json

/-! ## More levels -/

section Deepens

variable {α β : Type}

/-- The reading did not stop for want of levels. -/
def InDepth (r : Except Stop α) : Prop := ∀ container, r ≠ .error (.tooDeep container)

/-- A reader does the same as another one where that does not stop for want of levels. -/
def Deepens (deeper shallow : Reader α) : Prop := ∀ t, InDepth (shallow t) → deeper t = shallow t

theorem InDepth.of_map {r : Except Stop α} {f : α → β} (h : InDepth (r.map f)) : InDepth r := by
  rintro container rfl
  exact h container rfl

theorem InDepth.of_readOn {r : Except Stop (α × Text)} {next : α → Reader β}
    (h : InDepth (readOn r next)) : InDepth r := by
  rintro container rfl
  exact h container rfl

/-- Two readings that go apart under the same condition are the same if their branches are. -/
theorem InDepth.ite_congr {c : Prop} [Decidable c] {r r' s s' : Except Stop α}
    (h : InDepth (if c then r else s)) (hr : InDepth r → r' = r) (hs : InDepth s → s' = s) :
    (if c then r' else s') = if c then r else s := by
  by_cases hc : c
  · rw [if_pos hc] at h
    rw [if_pos hc, if_pos hc, hr h]
  · rw [if_neg hc] at h
    rw [if_neg hc, if_neg hc, hs h]

/-- What is read on behind the same goes on in the same way, if the readers behind it do. -/
theorem readOn_congr {r : Except Stop (α × Text)} {next next' : α → Reader β}
    (hnext : ∀ a, Deepens (next' a) (next a)) (h : InDepth (readOn r next)) :
    readOn r next' = readOn r next := by
  cases r with
  | error e => rfl
  | ok read => exact hnext read.1 read.2 h

variable {item item' : Reader α}

theorem deepens_readItems (hitem : Deepens item' item) (close : CodePoint) (bound : Nat)
    (read : List α) : Deepens (readItems item' close bound read) (readItems item close bound read) := by
  induction bound generalizing read with
  | zero => exact fun _ _ => rfl
  | succ bound ih =>
    intro t h
    rw [readItems_succ] at h
    rw [readItems_succ, readItems_succ, hitem t h.of_readOn]
    refine readOn_congr (fun a rest hrest => ?_) h
    unfold readBehindItem at hrest ⊢
    cases hgap : skipGap rest with
    | nil => rfl
    | cons c behind =>
      rw [hgap] at hrest
      exact hrest.ite_congr (fun _ => rfl) fun hrest => hrest.ite_congr (ih _ _) fun _ => rfl

theorem deepens_readBody (hitem : Deepens item' item) (close : CodePoint) (bound : Nat) :
    Deepens (readBody item' close bound) (readBody item close bound) := by
  intro t h
  unfold readBody at h ⊢
  exact h.ite_congr (fun _ => rfl) (deepens_readItems hitem close bound [] _)

end Deepens

theorem deepens_readBehindName {value value' : Reader Json} (hvalue : Deepens value' value)
    (name : Text) : Deepens (readBehindName value' name) (readBehindName value name) := by
  intro t h
  unfold readBehindName at h ⊢
  cases hgap : skipGap t with
  | nil => rfl
  | cons colon behind =>
    rw [hgap] at h
    refine h.ite_congr (fun h => ?_) fun _ => rfl
    rw [hvalue _ h.of_map]

theorem deepens_readMember {value value' : Reader Json} (hvalue : Deepens value' value) :
    Deepens (readMember value') (readMember value) := by
  intro t h
  cases t with
  | nil => rfl
  | cons c t =>
    rw [readMember_cons] at h
    rw [readMember_cons, readMember_cons]
    exact h.ite_congr (readOn_congr (deepens_readBehindName hvalue)) fun _ => rfl

/-- A value is read in the same way with more levels if the values inside it are. -/
theorem deepens_readValue_of_inner {bound fewer more : Nat}
    (hinner : ∀ f, fewer = f + 1 →
      ∃ m, more = m + 1 ∧ Deepens (readValue bound m) (readValue bound f)) :
    Deepens (readValue bound more) (readValue bound fewer) := by
  intro t h
  cases t with
  | nil => rw [readValue_nil, readValue_nil]
  | cons c t =>
    rw [readValue_cons] at h
    rw [readValue_cons, readValue_cons]
    refine h.ite_congr (fun _ => rfl) fun h => h.ite_congr (fun h => ?array) fun h =>
      h.ite_congr (fun h => ?object) fun _ => rfl
    case array =>
      obtain _ | f := fewer
      · exact absurd rfl (h .array)
      obtain ⟨m, rfl, hread⟩ := hinner f rfl
      dsimp only at h ⊢
      rw [deepens_readBody hread _ bound t h.of_map]
    case object =>
      obtain _ | f := fewer
      · exact absurd rfl (h .object)
      obtain ⟨m, rfl, hread⟩ := hinner f rfl
      dsimp only at h ⊢
      rw [deepens_readBody (deepens_readMember hread) _ bound t h.of_map]

/-- **A value that is not too deep** is read in the same way with more levels. -/
theorem deepens_readValue (bound : Nat) {fewer more : Nat} (h : fewer ≤ more) :
    Deepens (readValue bound more) (readValue bound fewer) := by
  induction fewer generalizing more with
  | zero => exact deepens_readValue_of_inner nofun
  | succ fewer ih =>
    obtain ⟨more, rfl⟩ := Nat.exists_eq_add_of_le' (Nat.le_trans (Nat.succ_le_succ fewer.zero_le) h)
    refine deepens_readValue_of_inner ?_
    rintro f ⟨⟩
    exact ⟨more, rfl, ih (Nat.le_of_succ_le_succ h)⟩

/-- **A text that is not too deep** holds the same with more levels, or is wrong in the same way. -/
theorem decode_of_le {fewer more : Nat} (h : fewer ≤ more) {t : Text}
    (hdeep : ∀ container, decode fewer t ≠ .error (.tooDeep container)) :
    decode more t = decode fewer t := by
  have hdocument : readDocument more t = readDocument fewer t := by
    unfold readDocument
    by_cases hmark : t.head? = some ({ val := 0xFEFF } : CodePoint)
    · rw [if_pos hmark, if_pos hmark]
    rw [if_neg hmark, if_neg hmark, deepens_readValue t.length h (skipGap t)]
    intro container hvalue
    refine hdeep container ?_
    unfold decode readDocument
    rw [if_neg hmark, hvalue]
    rfl
  unfold decode
  rw [hdocument]

/-! ## Nested arrays -/

/-- An array around as many others, each inside the one before. -/
def nested : Nat → Text
  | 0 => "[]"
  | n + 1 => '[' :: (nested n ++ "]")

/-- The value that it holds. -/
def nestedValue : Nat → Json
  | 0 => .array []
  | n + 1 => .array [nestedValue n]

theorem exists_nested_eq_cons (n : Nat) : ∃ t, nested n = ('[' : CodePoint) :: t := by
  cases n <;> exact ⟨_, rfl⟩

/-- No blank stands in front of nested arrays. -/
theorem skipGap_nested (n : Nat) (rest : Text) : skipGap (nested n ++ rest) = nested n ++ rest := by
  obtain ⟨t, ht⟩ := exists_nested_eq_cons n
  rw [ht]
  exact List.dropWhile_cons_of_neg (by decide)

/-- The brackets that open and close are all there is in nested arrays. -/
theorem mem_nested {n : Nat} {c : CodePoint} (h : c ∈ nested n) :
    c = ('[' : CodePoint) ∨ c = (']' : CodePoint) := by
  induction n with
  | zero =>
    change c ∈ [('[' : CodePoint), (']' : CodePoint)] at h
    simpa using h
  | succ n ih =>
    rcases List.mem_cons.mp h with rfl | h
    · exact .inl rfl
    rcases List.mem_append.mp h with h | h
    · exact ih h
    · exact .inr (List.mem_singleton.mp h)

/-- **Nested arrays are read just when there is a level for each of them.** -/
theorem readValue_nested (bound n levels : Nat) (rest : Text) :
    readValue (bound + 1) levels (nested n ++ rest) =
      if n < levels then .ok (nestedValue n, rest) else .error (.tooDeep .array) := by
  induction n generalizing levels rest with
  | zero =>
    cases levels with
    | zero => rfl
    | succ levels => rfl
  | succ n ih =>
    cases levels with
    | zero => rfl
    | succ levels =>
      -- The inner array starts with a bracket, so the items do not end where it starts.
      have hopen : (nested n ++ ("]" ++ rest)).head? ≠ some (']' : CodePoint) := by
        obtain ⟨t, ht⟩ := exists_nested_eq_cons n
        rw [ht]
        exact fun h => absurd (Option.some.inj h) (by decide)
      have hbody : readBody (readValue (bound + 1) levels) ']' (bound + 1) (nested n ++ ("]" ++ rest)) =
          if n < levels then .ok ([nestedValue n], rest) else .error (.tooDeep .array) := by
        unfold readBody
        dsimp only
        rw [skipGap_nested, if_neg hopen, readItems_succ, ih]
        by_cases hlevels : n < levels
        · rw [if_pos hlevels, if_pos hlevels]
          have hclose : isGap (']' : CodePoint) = false := by decide
          show readBehindItem (readValue (bound + 1) levels) ']' bound [nestedValue n] (']' :: rest) = _
          exact readBehindItem_close hclose bound _ rest
        · rw [if_neg hlevels, if_neg hlevels]
          rfl
      show readValue (bound + 1) (levels + 1) ('[' :: (nested n ++ "]" ++ rest)) = _
      rw [readValue_cons, if_neg (by decide), if_pos rfl, List.append_assoc]
      dsimp only
      rw [hbody]
      by_cases hlevels : n < levels
      · rw [if_pos hlevels, if_pos (Nat.succ_lt_succ hlevels)]
        rfl
      · rw [if_neg hlevels, if_neg (mt Nat.lt_of_succ_lt_succ hlevels)]
        rfl

/-! ## Members around them -/

/-- A code point that stands for itself in a string. -/
def IsVerbatim (c : CodePoint) : Prop :=
  c ≠ ('"' : CodePoint) ∧ ¬ c.val < 0x20 ∧ c ≠ ('\\' : CodePoint)

instance : DecidablePred IsVerbatim := fun _ => inferInstanceAs (Decidable (_ ∧ _))

/-- A string without escapes is read as it stands. -/
theorem readString_verbatim {t : Text} (h : ∀ c ∈ t, IsVerbatim c) (opening read rest : Text)
    (lead : Bool) :
    readString opening read lead (t ++ ('"' : CodePoint) :: rest) = .ok (read.reverse ++ t, rest) := by
  induction t generalizing read lead with
  | nil =>
    rw [List.nil_append, List.append_nil]
    exact readString_quote
  | cons c t ih =>
    obtain ⟨⟨hquote, hcontrol, hslash⟩, ht⟩ := List.forall_mem_cons.mp h
    rw [List.cons_append, readString_plain hquote hcontrol hslash, ih ht, List.reverse_cons,
      List.append_assoc]
    rfl

/-- A member of an object, and what stands behind its colon. -/
def member (name rest : Text) : Text :=
  ('"' : CodePoint) :: (name ++ ('"' : CodePoint) :: (':' : CodePoint) :: rest)

theorem skipGap_member (name rest : Text) : skipGap (member name rest) = member name rest :=
  List.dropWhile_cons_of_neg (by decide)

theorem readMember_member {name : Text} (h : ∀ c ∈ name, IsVerbatim c) (value : Reader Json)
    {rest : Text} (hrest : skipGap rest = rest) :
    readMember value (member name rest) = (value rest).map fun (v, behind) => ((name, v), behind) := by
  unfold member
  rw [readMember_cons, if_pos rfl, readString_verbatim h]
  have hcolon : skipGap ((':' : CodePoint) :: rest) = (':' : CodePoint) :: rest :=
    List.dropWhile_cons_of_neg (by decide)
  unfold readOn readBehindName
  dsimp only
  rw [hcolon]
  dsimp only
  rw [if_pos rfl, hrest]
  rfl

end Json

end LitmusGraph
