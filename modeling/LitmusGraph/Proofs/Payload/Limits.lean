import LitmusGraph.Drawing.Basic
import LitmusGraph.Proofs.Execution.Threads
import LitmusGraph.Proofs.Json.Nesting
import LitmusGraph.Proofs.Json.Writable
import LitmusGraph.Proofs.Payload.Loading
import LitmusGraph.Proofs.Text.LineEnds

/-!
# Limits of payload files

Two limits of the interpreter show in what becomes of a payload file. The levels of nesting that are left
depend on how many calls are open when `read_executions` is called, so it may read more in one place of
the program than in another. The limit on digits is the same for reading and for writing, so an
execution from a file always has a drawing.

Results:
* `load_of_le`, `load_eq_ok_of_le`: more levels make no difference to a file that is not too deep.
* `load_deepFile`: they do to others: a payload of any depth is loaded just when there are levels
  enough.
* `isDrawable_of_load`: the threads of what is loaded can be written.
-/

namespace LitmusGraph

namespace Payload

/-! ## More levels -/

section More

/-- Loading fails for want of levels. -/
def TooDeep (levels : Nat) (tree : FileTree) (path : Text) : Prop :=
  ∃ container, (load levels tree path).2 = .error (.notJson path (.tooDeep container))

variable {fewer more : Nat} {tree : FileTree} {path : Text}

/-- **A file that is not too deep** comes to the same with more levels. -/
theorem load_of_le (h : fewer ≤ more) (hdeep : ¬ TooDeep fewer tree path) :
    load more tree path = load fewer tree path := by
  have hbytes : ∀ bytes, tree.read (location path) = .ok bytes →
      ofBytes more path bytes = ofBytes fewer path bytes := by
    intro bytes hread
    unfold TooDeep at hdeep
    rw [load_of_read hread] at hdeep
    unfold ofBytes at hdeep ⊢
    cases htext : Utf8.decode bytes with
    | error e => rfl
    | ok text =>
      have hsame := Json.decode_of_le h (t := text.unifyLineEnds) fun container hjson => by
        refine hdeep ⟨container, ?_⟩
        rw [htext]
        show (Json.decode fewer text.unifyLineEnds).mapError (ReadError.notJson path) >>= _ = _
        rw [hjson]
        rfl
      show (Json.decode more text.unifyLineEnds).mapError (ReadError.notJson path) >>= _ =
        (Json.decode fewer text.unifyLineEnds).mapError (ReadError.notJson path) >>= _
      rw [hsame]
  unfold location at hbytes
  unfold load
  dsimp only
  cases hexists : tree.exists? (Path.ofText path).toText with
  | error e => rfl
  | ok found =>
    cases found with
    | false => rfl
    | true =>
      cases hread : tree.read (Path.ofText path).toText with
      | error e => rfl
      | ok bytes =>
        dsimp only
        rw [hbytes bytes hread]

/-- What is loaded with some levels is loaded with more. -/
theorem load_eq_ok_of_le (h : fewer ≤ more) {xs : List Execution}
    (hload : (load fewer tree path).2 = .ok xs) : (load more tree path).2 = .ok xs := by
  rw [load_of_le h fun ⟨_, hdeep⟩ => nomatch hdeep.symm.trans hload]
  exact hload

end More

/-! ## Payloads of any depth -/

/-- A single execution without events, and with a member besides that no reader knows: nested arrays. -/
def deepObject (n : Nat) : Text :=
  ('{' : CodePoint) :: Json.member "events"
    (Json.nested 0 ++ (',' : CodePoint) :: Json.member "x" (Json.nested n ++ "\x7d"))

/-- The members that it holds. -/
def deepMembers (n : Nat) : List (Text × Json) := [("events", .array []), ("x", Json.nestedValue n)]

/-- The members are read just when there are levels enough for the arrays in them. -/
theorem readBody_deepObject (bound n levels : Nat) :
    Json.readBody (Json.readMember (Json.readValue (bound + 2) levels)) '\x7d' (bound + 2)
        (Json.member "events"
          (Json.nested 0 ++ (',' : CodePoint) :: Json.member "x" (Json.nested n ++ "\x7d"))) =
      if n < levels then .ok (deepMembers n, [])
      else .error (.tooDeep .array) := by
  have hopen (name rest : Text) : (Json.member name rest).head? ≠ some ('\x7d' : CodePoint) :=
    fun h => absurd (Option.some.inj h) (by decide)
  unfold Json.readBody
  dsimp only
  rw [Json.skipGap_member, if_neg (hopen _ _), Json.readItems_succ,
    Json.readMember_member (by decide) _ (Json.skipGap_nested 0 _), Json.readValue_nested]
  by_cases hzero : 0 < levels
  · rw [if_pos hzero]
    dsimp only [Except.map, Json.readOn]
    rw [Json.readBehindItem_comma (by decide), Json.skipGap_member, Json.readItems_succ,
      Json.readMember_member (by decide) _ (Json.skipGap_nested n _), Json.readValue_nested]
    by_cases hlevels : n < levels
    · rw [if_pos hlevels, if_pos hlevels]
      have hclose : Json.isGap ('\x7d' : CodePoint) = false := by decide
      dsimp only [Except.map, Json.readOn]
      exact Json.readBehindItem_close hclose _ _ []
    · rw [if_neg hlevels, if_neg hlevels]
      rfl
  · rw [if_neg hzero, if_neg fun hlevels => hzero (Nat.zero_lt_of_lt hlevels)]
    rfl

/-- **A payload of any depth** is JSON just when there are levels enough. -/
theorem decode_deepObject (n levels : Nat) :
    Json.decode (levels + 1) (deepObject n) =
      if n < levels then .ok (.object (deepMembers n)) else .error (.tooDeep .array) := by
  have hmark : (deepObject n).head? ≠ some ({ val := 0xFEFF } : CodePoint) :=
    fun h => absurd (Option.some.inj h) (by decide)
  have hgap : Json.skipGap (deepObject n) = deepObject n := List.dropWhile_cons_of_neg (by decide)
  obtain ⟨bound, hbound⟩ : ∃ bound, (deepObject n).length = bound + 2 := ⟨_, rfl⟩
  unfold Json.decode Json.readDocument
  rw [if_neg hmark, hgap, hbound]
  have hvalue : Json.readValue (bound + 2) (levels + 1) (deepObject n) =
      if n < levels then .ok (.object (deepMembers n), []) else .error (.tooDeep .array) := by
    unfold deepObject
    rw [Json.readValue_cons, if_neg (by decide), if_neg (by decide), if_pos rfl]
    dsimp only
    rw [readBody_deepObject]
    by_cases hlevels : n < levels
    · rw [if_pos hlevels, if_pos hlevels]
      rfl
    · rw [if_neg hlevels, if_neg hlevels]
      rfl
  rw [hvalue]
  by_cases hlevels : n < levels
  · rw [if_pos hlevels, if_pos hlevels]
    rfl
  · rw [if_neg hlevels, if_neg hlevels]
    rfl

/-- Brackets stand in the payload of any depth, so it has the code points of the flat one. -/
theorem mem_deepObject {n : Nat} {c : CodePoint} (h : c ∈ deepObject n) : c ∈ deepObject 0 := by
  simp only [deepObject, Json.member, List.mem_cons, List.mem_append] at h ⊢
  have hnested : c ∈ Json.nested n → c ∈ Json.nested 0 := fun h => by
    rcases Json.mem_nested h with rfl | rfl <;> decide
  tauto

/-- The execution in it. -/
def deepExecution : Execution := { events := [], sets := [], relations := [], shown := [] }

/-- A file with it. -/
def deepFile (n : Nat) : FileTree where
  root := .folder [("e.json", .file ((deepObject n).flatMap Utf8.encodeCodePoint))]
  working := []

theorem holds_deepFile (n : Nat) : Holds (deepFile n) "e.json" (deepObject n) := by
  have hflat : Utf8.Encodable (deepObject 0) := by decide
  exact ⟨_, rfl, Utf8.Encodable.encode_eq fun c hc => hflat c (mem_deepObject hc)⟩

/-- **The file is loaded** just when there are levels enough. -/
theorem load_deepFile (n levels : Nat) :
    (load (levels + 1) (deepFile n) "e.json").2 =
      if n < levels then .ok [deepExecution] else .error (.notJson "e.json" (.tooDeep .array)) := by
  have hflat : ('\r' : CodePoint) ∉ deepObject 0 := by decide
  rw [load_of_holds (holds_deepFile n),
    Text.unifyLineEnds_of_notMem fun h => hflat (mem_deepObject h), decode_deepObject]
  by_cases hlevels : n < levels
  · rw [if_pos hlevels, if_pos hlevels]
    rfl
  · rw [if_neg hlevels, if_neg hlevels]
    rfl

/-! ## What is loaded has a drawing -/

section Drawable

variable {value : Json} {x : Execution} {xs : List Execution}

/-- The items of a list that spells out things, and what each of them spells out. -/
theorem exists_item_of_mem {α : Type} {spells : Json → α → Prop} {as : List α} {a : α}
    (h : ListOf spells value as) (ha : a ∈ as) (hvalue : value.IsWritable) :
    ∃ item : Json, item.IsWritable ∧ spells item a := by
  obtain ⟨items, rfl, hitems⟩ := h
  have hwritable := hvalue.of_array
  clear hvalue
  induction hitems with
  | nil => exact nomatch ha
  | @cons item b _ _ hspells _ ih =>
    obtain ⟨hitem, hrest⟩ := List.forall_mem_cons.mp hwritable
    rcases List.mem_cons.mp ha with rfl | ha
    · exact ⟨item, hitem, hspells⟩
    · exact ih ha hrest

theorem isDrawable_of_executionOf (h : ExecutionOf value x) (hvalue : value.IsWritable) :
    x.IsDrawable := by
  obtain ⟨members, rfl, ⟨events, hget, hevents⟩, -⟩ := h
  intro t ht
  obtain ⟨e, he, rfl⟩ := (Execution.mem_threads_iff x t).mp ht
  obtain ⟨_, hitem, eventMembers, rfl, -, -, -, hthread, -⟩ :=
    exists_item_of_mem hevents he (hvalue.of_get? hget)
  exact (hitem.of_get? hthread).of_int

/-- What a payload spells out has a drawing, if the numbers in the payload can be written. -/
theorem isDrawable_of_payloadOf (h : PayloadOf value xs) (hvalue : value.IsWritable) :
    ∀ x ∈ xs, x.IsDrawable := by
  intro x hx
  cases h with
  | list executions =>
    obtain ⟨item, hitem, hspells⟩ := exists_item_of_mem executions hx hvalue
    exact isDrawable_of_executionOf hspells hitem
  | graphs found executions =>
    obtain ⟨item, hitem, hspells⟩ := exists_item_of_mem executions hx (hvalue.of_get? found)
    exact isDrawable_of_executionOf hspells hitem
  | single _ execution =>
    obtain rfl := List.mem_singleton.mp hx
    exact isDrawable_of_executionOf execution hvalue

/-- **What is loaded from a file** has a drawing. -/
theorem isDrawable_of_load {levels : Nat} {tree : FileTree} {path : Text}
    (h : (load levels tree path).2 = .ok xs) : ∀ x ∈ xs, x.IsDrawable := by
  obtain ⟨text, value, -, hjson, hpayload⟩ := (load_eq_ok_iff levels tree path xs).mp h
  exact isDrawable_of_payloadOf hpayload (Json.isWritable_of_decode hjson)

end Drawable

end Payload

end LitmusGraph
