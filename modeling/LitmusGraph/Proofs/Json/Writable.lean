import LitmusGraph.Proofs.Json.Parts
import LitmusGraph.Proofs.Json.Steps
import LitmusGraph.Proofs.Text.Limit
import Mathlib.Data.List.Induction

/-!
# What is read can be written

`json.loads` refuses a whole number with more digits than the interpreter converts, and the same limit
holds when a number is written. So all numbers of a JSON value that was read from a text can be written
again, however deep they lie.

Results:
* `yields_readBody`, `yields_readMember`: what holds of all that a reader reads holds of all items.
* `isWritable_of_decode`: every whole number in a value that was read can be written.
-/

namespace LitmusGraph

namespace Json

/-- All whole numbers in a value can be written. -/
inductive IsWritable : Json → Prop where
  /-- The null value. -/
  | null : IsWritable .null
  /-- A truth value. -/
  | bool (b : Bool) : IsWritable (.bool b)
  /-- A number that can be written itself. -/
  | int {n : Int} (h : Text.IsWritable n) : IsWritable (.int n)
  /-- A floating-point value. -/
  | float (x : Binary64) : IsWritable (.float x)
  /-- A string. -/
  | string (t : Text) : IsWritable (.string t)
  /-- An array of such values. -/
  | array {items : List Json} (h : ∀ item ∈ items, IsWritable item) : IsWritable (.array items)
  /-- An object with such values. -/
  | object {members : List (Text × Json)} (h : ∀ m ∈ members, IsWritable m.2) :
    IsWritable (.object members)

theorem IsWritable.of_int {n : Int} (h : IsWritable (.int n)) : Text.IsWritable n := by
  cases h
  assumption

theorem IsWritable.of_array {items : List Json} (h : IsWritable (.array items)) :
    ∀ item ∈ items, IsWritable item := by
  cases h
  assumption

theorem IsWritable.of_get? {members : Members} (h : IsWritable (.object members)) {key : Text}
    {value : Json} (hget : members.get? key = some value) : IsWritable value := by
  cases h with
  | object h => exact h _ (Table.mem_of_get? hget)

/-! ## Whole numbers -/

theorem isDigit_of_digits? {t ds rest : Text} (h : digits? t = some (ds, rest)) :
    ∀ c ∈ ds, c.isDigit = true := by
  obtain ⟨rfl, -, -⟩ := digits?_eq_some_iff.mp h
  exact fun c => List.mem_takeWhile_imp

theorem isDigit_of_wholePart? {t ds rest : Text} (h : wholePart? t = some (ds, rest)) :
    ∀ c ∈ ds, c.isDigit = true := by
  cases t with
  | nil => exact nomatch h
  | cons c t =>
    rw [wholePart?_cons] at h
    by_cases hzero : c = ('0' : CodePoint)
    · rw [if_pos hzero] at h
      obtain ⟨rfl, -⟩ := Prod.mk.inj (Option.some.inj h)
      rw [hzero]
      decide
    · rw [if_neg hzero] at h
      exact isDigit_of_digits? h

theorem isDigit_of_numeral? {t rest : Text} {n : Numeral} (h : numeral? t = some (n, rest)) :
    ∀ c ∈ n.whole, c.isDigit = true := by
  unfold numeral? at h
  obtain ⟨⟨whole, behind⟩, hwhole, hrest⟩ := Option.bind_eq_some_iff.mp h
  obtain ⟨rfl, -⟩ := Prod.mk.inj (Option.some.inj hrest)
  exact isDigit_of_wholePart? hwhole

/-- The value of a number can be written, since it has few enough digits or is not whole. -/
theorem isWritable_value {n : Numeral} (h : ∀ c ∈ n.whole, c.isDigit = true) {value : Json}
    (hvalue : n.value = .ok value) : IsWritable value := by
  unfold Numeral.value at hvalue
  split at hvalue
  · by_cases hlong : Text.maxDigits < n.whole.length
    · rw [if_pos hlong] at hvalue
      exact nomatch hvalue
    rw [if_neg hlong] at hvalue
    obtain rfl := Except.ok.inj hvalue
    have hmagnitude := Text.isWritable_digitsValue h (Nat.le_of_not_lt hlong)
    refine .int ?_
    by_cases hnegative : n.negative = true
    · rw [if_pos hnegative]
      exact Text.isWritable_neg.mpr hmagnitude
    · rw [if_neg hnegative]
      exact hmagnitude
  · obtain rfl := Except.ok.inj hvalue
    exact .float _

/-! ## What readers read -/

/-- A reading that went well goes back to one that did, whose result was changed. -/
theorem exists_of_map_eq_ok {α β : Type} {r : Except Stop (α × Text)} {f : α → β} {b : β} {rest : Text}
    (h : (r.map fun (a, behind) => (f a, behind)) = .ok (b, rest)) :
    ∃ a, r = .ok (a, rest) ∧ b = f a := by
  cases r with
  | error e => exact nomatch h
  | ok read =>
    obtain ⟨a, behind⟩ := read
    obtain ⟨rfl, rfl⟩ := Prod.mk.inj (Except.ok.inj h)
    exact ⟨a, rfl, rfl⟩

/-- Two readings, one behind the other, went well. -/
theorem exists_of_readOn_eq_ok {α β : Type} {r : Except Stop (α × Text)} {next : α → Reader β}
    {b : β × Text} (h : readOn r next = .ok b) :
    ∃ a behind, r = .ok (a, behind) ∧ next a behind = .ok b := by
  cases r with
  | error e => exact nomatch h
  | ok read => exact ⟨read.1, read.2, rfl, h⟩

section Yields

variable {α : Type} {p : α → Prop} {item : Reader α}

/-- Whatever a reader reads has a property. -/
def Yields (p : α → Prop) (read : Reader α) : Prop := ∀ t a rest, read t = .ok (a, rest) → p a

/-- The items of a list have what all items have, those that were read before included. -/
theorem yields_readItems (hitem : Yields p item) (close : CodePoint) (bound : Nat) {read : List α}
    (hread : ∀ a ∈ read, p a) :
    Yields (fun as => ∀ a ∈ as, p a) (readItems item close bound read) := by
  intro t as rest h
  induction bound generalizing read t with
  | zero => exact nomatch h
  | succ bound ih =>
    rw [readItems_succ] at h
    obtain ⟨a, behind, hfirst, hbehind⟩ := exists_of_readOn_eq_ok h
    have hread' : ∀ b ∈ a :: read, p b := List.forall_mem_cons.mpr ⟨hitem t a behind hfirst, hread⟩
    unfold readBehindItem at hbehind
    split at hbehind
    · exact nomatch hbehind
    split at hbehind
    · obtain ⟨rfl, -⟩ := Prod.mk.inj (Except.ok.inj hbehind)
      exact fun b hb => hread' b (List.mem_reverse.mp hb)
    split at hbehind
    · exact ih hread' _ hbehind
    · exact nomatch hbehind

theorem yields_readBody (hitem : Yields p item) (close : CodePoint) (bound : Nat) :
    Yields (fun as => ∀ a ∈ as, p a) (readBody item close bound) := by
  intro t as rest h
  unfold readBody at h
  dsimp only at h
  split at h
  · obtain ⟨rfl, -⟩ := Prod.mk.inj (Except.ok.inj h)
    exact List.forall_mem_nil p
  · exact yields_readItems hitem close bound (List.forall_mem_nil p) _ _ _ h

end Yields

theorem yields_readMember {p : Json → Prop} {value : Reader Json} (hvalue : Yields p value) :
    Yields (fun m => p m.2) (readMember value) := by
  intro t m rest h
  cases t with
  | nil => exact nomatch h
  | cons c t =>
    rw [readMember_cons] at h
    split at h
    swap
    · exact nomatch h
    obtain ⟨name, behind, -, hbehind⟩ := exists_of_readOn_eq_ok h
    unfold readBehindName at hbehind
    split at hbehind
    · exact nomatch hbehind
    split at hbehind
    · obtain ⟨v, hv, rfl⟩ := exists_of_map_eq_ok hbehind
      exact hvalue _ v rest hv
    · exact nomatch hbehind

/-- The members of an object are among those given. -/
theorem mem_of_mem_ofList {given : List (Text × Json)} {m : Text × Json}
    (h : m ∈ Members.ofList given) : m ∈ given := by
  induction given using List.reverseRecOn with
  | nil => exact h
  | append_singleton given last ih =>
    unfold Members.ofList at h
    rw [List.foldl_append] at h
    rcases Table.mem_insert h with rfl | h
    · exact List.mem_append_right _ (List.mem_singleton_self _)
    · exact List.mem_append_left _ (ih h)

/-! ## Values -/

theorem isWritable_of_mem_names {m : Text × Json} (h : m ∈ names) : IsWritable m.2 := by
  simp only [names, List.mem_cons, List.not_mem_nil, or_false] at h
  obtain rfl | rfl | rfl | rfl | rfl | rfl := h
  · exact .null
  · exact .bool true
  · exact .bool false
  · exact .float _
  · exact .float _
  · exact .float _

theorem yields_readAtom : Yields IsWritable readAtom := by
  intro t value rest h
  unfold readAtom at h
  split at h
  next hname =>
    obtain ⟨rfl, -⟩ := Prod.mk.inj (Except.ok.inj h)
    exact isWritable_of_mem_names (List.mem_of_find?_eq_some hname)
  split at h
  next n behind hnumeral =>
    cases hvalue : n.value with
    | error e =>
      rw [hvalue] at h
      exact nomatch h
    | ok v =>
      rw [hvalue] at h
      obtain ⟨rfl, -⟩ := Prod.mk.inj (Except.ok.inj h)
      exact isWritable_value (isDigit_of_numeral? hnumeral) hvalue
  · exact nomatch h

/-- What is read with some levels can be written if what is read with one level less can. -/
theorem yields_readValue_of_inner {bound levels : Nat}
    (hinner : ∀ fewer, levels = fewer + 1 → Yields IsWritable (readValue bound fewer)) :
    Yields IsWritable (readValue bound levels) := by
  intro t value rest h
  cases t with
  | nil =>
    rw [readValue_nil] at h
    exact nomatch h
  | cons c t =>
    rw [readValue_cons] at h
    split at h
    · obtain ⟨s, -, rfl⟩ := exists_of_map_eq_ok h
      exact .string s
    split at h
    · obtain _ | fewer := levels
      · exact nomatch h
      obtain ⟨items, hitems, rfl⟩ := exists_of_map_eq_ok (f := array) h
      exact .array (yields_readBody (hinner fewer rfl) _ bound t items rest hitems)
    split at h
    · obtain _ | fewer := levels
      · exact nomatch h
      obtain ⟨given, hgiven, rfl⟩ :=
        exists_of_map_eq_ok (f := fun given => object (Members.ofList given)) h
      have hmembers := yields_readBody (yields_readMember (hinner fewer rfl)) _ bound t given rest hgiven
      exact .object fun m hm => hmembers m (mem_of_mem_ofList hm)
    · exact yields_readAtom _ value rest h

/-- **Whatever value is read** can be written, by induction on the levels of nesting. -/
theorem yields_readValue (bound levels : Nat) : Yields IsWritable (readValue bound levels) := by
  induction levels with
  | zero => exact yields_readValue_of_inner nofun
  | succ levels ih =>
    refine yields_readValue_of_inner ?_
    rintro fewer ⟨⟩
    exact ih

/-- A value that a text holds is read from its start. -/
theorem exists_readValue_of_decode {levels : Nat} {t : Text} {value : Json}
    (h : decode levels t = .ok value) :
    ∃ rest, readValue t.length levels (skipGap t) = .ok (value, rest) := by
  have hread : readDocument levels t = .ok value := by
    unfold decode at h
    cases hdocument : readDocument levels t with
    | error stop =>
      rw [hdocument] at h
      cases h
    | ok v =>
      rw [hdocument] at h
      exact congrArg Except.ok (Except.ok.inj h)
  unfold readDocument at hread
  split at hread
  · cases hread
  cases hvalue : readValue t.length levels (skipGap t) with
  | error e =>
    rw [hvalue] at hread
    cases hread
  | ok read =>
    obtain ⟨v, rest⟩ := read
    rw [hvalue] at hread
    dsimp only at hread
    split at hread
    · obtain rfl := Except.ok.inj hread
      exact ⟨rest, rfl⟩
    · cases hread

/-- **What is read from a text can be written.** -/
theorem isWritable_of_decode {levels : Nat} {t : Text} {value : Json}
    (h : decode levels t = .ok value) : value.IsWritable := by
  obtain ⟨rest, hvalue⟩ := exists_readValue_of_decode h
  exact yields_readValue _ _ _ value rest hvalue

end Json

end LitmusGraph
