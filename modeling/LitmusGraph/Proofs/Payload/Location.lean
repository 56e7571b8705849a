import LitmusGraph.Proofs.Payload.Language
import LitmusGraph.Proofs.Text.Reading

/-!
# Where a payload goes wrong

A payload may have many defects, and one of them is reported. `FirstBad` is the first item of a list
that is not of a kind. `WrongList` and `WrongExecution` say what is wrong with a list and with an
execution, one constructor for each way to be wrong: in a constructor for a later member all earlier
ones are good, and nothing is said about what comes after.

The reader takes the lists of an execution one after the other (`execution_object`), so that a
problem is one of the first list that has any. `Accepts` says on which kind of value a reading
succeeds; what a list does with its items follows from that.

Results:
* `Accepts.readEach_eq_error_iff`: a list fails at its first bad item, with the problem of that item.
* `execution_eq_error_iff`: the problem of an execution is the first thing that is wrong with it.
* `executions_array_eq_error_iff`: the problem of a list of executions.
* `problems_are_located`: how the reading of two lists makes up that of both together, and which
  execution and which event a message names.
-/

namespace LitmusGraph

namespace Payload

/-! ## The first bad item of a list -/

/-- The first item of a list that is not of a kind, and its index. -/
structure FirstBad (kind : Json → Prop) (items : List Json) (index : Nat) (item : Json) : Prop where
  at_index : items[index]? = some item
  bad : ¬ kind item
  before : ∀ i < index, ∀ other, items[i]? = some other → kind other

section FirstBad

variable {kind : Json → Prop} {as bs : List Json} {index : Nat} {item : Json}

theorem not_firstBad_nil : ¬ FirstBad kind [] index item := fun h => nomatch h.at_index

/-- The first bad item is the head, or the head is good and it is the first bad one of the rest. -/
theorem firstBad_cons_iff {a : Json} :
    FirstBad kind (a :: as) index item ↔
      (¬ kind a ∧ index = 0 ∧ item = a) ∨ (kind a ∧ ∃ i, index = i + 1 ∧ FirstBad kind as i item) := by
  constructor
  · rintro ⟨hat, hbad, hbefore⟩
    cases index with
    | zero =>
      obtain rfl := Option.some.inj hat
      exact .inl ⟨hbad, rfl, rfl⟩
    | succ i =>
      refine .inr ⟨hbefore 0 (Nat.succ_pos i) a rfl, i, rfl, hat, hbad, fun j hj other hother => ?_⟩
      exact hbefore (j + 1) (Nat.succ_lt_succ hj) other hother
  · rintro (⟨hbad, rfl, rfl⟩ | ⟨ha, i, rfl, hat, hbad, hbefore⟩)
    · exact ⟨rfl, hbad, fun j hj => absurd hj (Nat.not_lt_zero j)⟩
    · refine ⟨hat, hbad, fun j hj other hother => ?_⟩
      cases j with
      | zero => exact Option.some.inj hother ▸ ha
      | succ j => exact hbefore j (Nat.lt_of_succ_lt_succ hj) other hother

/-- What follows a bad item does not matter. -/
theorem FirstBad.append (h : FirstBad kind as index item) (bs : List Json) :
    FirstBad kind (as ++ bs) index item := by
  induction as generalizing index with
  | nil => exact absurd h not_firstBad_nil
  | cons a as ih =>
    rw [List.cons_append, firstBad_cons_iff]
    rcases firstBad_cons_iff.mp h with hhere | ⟨ha, i, rfl, hrest⟩
    · exact .inl hhere
    · exact .inr ⟨ha, i, rfl, ih hrest⟩

/-- Good items in front move the first bad one. -/
theorem FirstBad.behind (h : FirstBad kind bs index item) (has : ∀ a ∈ as, kind a) :
    FirstBad kind (as ++ bs) (as.length + index) item := by
  induction as with
  | nil => rwa [List.nil_append, List.length_nil, Nat.zero_add]
  | cons a as ih =>
    obtain ⟨ha, has⟩ := List.forall_mem_cons.mp has
    rw [List.cons_append, firstBad_cons_iff]
    exact .inr ⟨ha, as.length + index, by simp only [List.length_cons]; omega, ih has⟩

end FirstBad

/-! ## Failing steps -/

section Steps

variable {ε α β : Type}

theorem bind_eq_error_iff {r : Except ε α} {f : α → Except ε β} {e : ε} :
    r >>= f = .error e ↔ r = .error e ∨ ∃ a, r = .ok a ∧ f a = .error e := by
  cases r <;> simp [bind, Except.bind]

theorem pure_ne_error {a : α} {e : ε} : (pure a : Except ε α) ≠ .error e := nofun

end Steps

/-! ## List by list -/

section Lists

variable {α : Type}

/-- The items of a list, each read if the value is a list. -/
def readList (field : Text) (inside : Nat → Problem → Problem) (read : Json → Except Problem α)
    (value : Json) : Except Problem (List α) := do
  readEach inside read (← items field value)

/-- The items of a list under a key, none if it is absent. -/
def readOptional (key : Text) (read : Json → Except Problem α) (members : Json.Members) :
    Except Problem (List α) :=
  match members.get? key with
  | none => .ok []
  | some value => readList key (fun _ problem => problem) read value

/-- Without naming items, a list is read item by item. -/
theorem readEach_eq_mapM (read : Json → Except Problem α) (values : List Json) :
    readEach (fun _ problem => problem) read values = values.mapM read := by
  have hself (value : Json) : (read value).mapError (fun problem => problem) = read value := by
    cases read value <;> rfl
  unfold readEach
  simp only [hself]
  generalize 0 = start
  induction values generalizing start with
  | nil => rfl
  | cons value values ih => simp only [List.zipIdx_cons, List.mapM_cons, ih]

theorem optionalItems_bind_mapM (key : Text) (read : Json → Except Problem α) (members : Json.Members) :
    optionalItems key members >>= (·.mapM read) = readOptional key read members := by
  unfold optionalItems readOptional readList
  cases members.get? key with
  | none => rfl
  | some value => simp only [readEach_eq_mapM]

/-- An execution is read list by list. -/
theorem execution_object (members : Json.Members) :
    execution (.object members) = do
      let events ← require .executionOrEvent "events" members >>= readList "events" .inEvent event
      let sets ← readOptional "sets" set members
      let relations ← readOptional "relations" relation members
      let shown ← readOptional "show" (string "show") members
      return { events, sets, relations, shown } := by
  simp only [← optionalItems_bind_mapM, readList, bind_assoc]
  rfl

end Lists

/-! ## Lists that fail -/

/-- What a reading succeeds on is a kind of value. -/
def Accepts {α : Type} (read : Json → Except Problem α) (kind : Json → Prop) : Prop :=
  ∀ value, (∃ a, read value = .ok a) ↔ kind value

section Failing

variable {α : Type} {kind : Json → Prop} {inside : Nat → Problem → Problem}
  {read : Json → Except Problem α}

theorem Accepts.not_kind (h : Accepts read kind) {value : Json} {q : Problem}
    (hread : read value = .error q) : ¬ kind value := by
  intro hkind
  obtain ⟨a, ha⟩ := (h value).mpr hkind
  exact nomatch hread.symm.trans ha

theorem Accepts.exists_eq_error (h : Accepts read kind) {value : Json} (hbad : ¬ kind value) :
    ∃ q, read value = .error q := by
  cases hread : read value with
  | error q => exact ⟨q, rfl⟩
  | ok a => exact absurd ((h value).mp ⟨a, hread⟩) hbad

/-- **A list fails at its first bad item**, with the problem of that item. -/
theorem Accepts.readEach_eq_error_iff (h : Accepts read kind) {values : List Json} {p : Problem} :
    readEach inside read values = .error p ↔
      ∃ index value q, FirstBad kind values index value ∧ read value = .error q ∧ p = inside index q := by
  unfold readEach
  -- The numbers move on with the items, so the induction is for every first number.
  suffices hstart : ∀ start, (values.zipIdx start).mapM
      (fun item => (read item.1).mapError (inside item.2)) = .error p ↔
        ∃ index value q, FirstBad kind values index value ∧ read value = .error q ∧
          p = inside (start + index) q by
    simpa only [Nat.zero_add] using hstart 0
  induction values with
  | nil =>
    intro start
    simp [not_firstBad_nil, pure_ne_error]
  | cons value values ih =>
    intro start
    rw [List.zipIdx_cons, List.mapM_cons]
    simp only [bind_eq_error_iff, pure_ne_error, and_false, exists_false, or_false, ih, firstBad_cons_iff]
    cases hvalue : read value with
    | error q =>
      have hbad : ¬ kind value := h.not_kind hvalue
      simp [Except.mapError, hbad, hvalue, eq_comm]
    | ok a =>
      have hgood : kind value := (h value).mp ⟨a, hvalue⟩
      simp only [Except.mapError, hgood, not_true_eq_false, false_and, false_or, true_and, reduceCtorEq,
        Except.ok.injEq, exists_eq_left', Nat.add_assoc, Nat.add_comm 1]
      constructor
      · rintro ⟨index, item, q, hfirst, hitem, rfl⟩
        exact ⟨index + 1, item, q, ⟨index, rfl, hfirst⟩, hitem, rfl⟩
      · rintro ⟨_, item, q, ⟨index, rfl, hfirst⟩, hitem, rfl⟩
        exact ⟨index, item, q, hfirst, hitem, rfl⟩

/-- A list is read just when all of its items are good. -/
theorem Accepts.exists_readEach_eq_ok_iff (h : Accepts read kind) (values : List Json) :
    (∃ as, readEach inside read values = .ok as) ↔ ∀ value ∈ values, kind value := by
  simp only [readEach_eq_ok_iff]
  exact exists_forall₂_iff h values

end Failing

/-! ## What is wrong with an execution -/

/-- What is wrong with a value that should be a list: it is none, or an item is bad, and then it is
what is wrong with the first bad item. -/
inductive WrongList {α : Type} (field : Text) (inside : Nat → Problem → Problem) (kind : Json → Prop)
    (read : Json → Except Problem α) : Json → Problem → Prop where
  /-- It is no list. -/
  | notList {value : Json} (no_list : ∀ items, value ≠ .array items) :
    WrongList field inside kind read value (.notList field value)
  /-- An item is bad. -/
  | item {items : List Json} {index : Nat} {item : Json} {problem : Problem}
    (first : FirstBad kind items index item) (wrong : read item = .error problem) :
    WrongList field inside kind read (.array items) (inside index problem)

/-- What is wrong with a value that should be an execution. The events come before the sets, the sets
before the relations, and the relations before the names to show. -/
inductive WrongExecution : Json → Problem → Prop where
  /-- It is no object. -/
  | notObject {value : Json} (no_object : ∀ members, value ≠ .object members) :
    WrongExecution value (.notObject value)
  /-- The events are missing. -/
  | noEvents {members : Json.Members} (absent : members.get? "events" = none) :
    WrongExecution (.object members) (.missing .executionOrEvent "events")
  /-- The events are wrong. -/
  | events {members : Json.Members} {value : Json} {problem : Problem}
    (found : members.get? "events" = some value)
    (wrong : WrongList "events" .inEvent IsEvent event value problem) :
    WrongExecution (.object members) problem
  /-- The events are good, the sets are wrong. -/
  | sets {members : Json.Members} {value : Json} {problem : Problem}
    (events : Has members "events" (IsListOf IsEvent)) (found : members.get? "sets" = some value)
    (wrong : WrongList "sets" (fun _ problem => problem) IsSet set value problem) :
    WrongExecution (.object members) problem
  /-- The events and the sets are good, the relations are wrong. -/
  | relations {members : Json.Members} {value : Json} {problem : Problem}
    (events : Has members "events" (IsListOf IsEvent))
    (sets : MayHave members "sets" (IsListOf IsSet)) (found : members.get? "relations" = some value)
    (wrong : WrongList "relations" (fun _ problem => problem) IsRelation relation value problem) :
    WrongExecution (.object members) problem
  /-- Only the names to show are wrong. -/
  | shown {members : Json.Members} {value : Json} {problem : Problem}
    (events : Has members "events" (IsListOf IsEvent))
    (sets : MayHave members "sets" (IsListOf IsSet))
    (relations : MayHave members "relations" (IsListOf IsRelation))
    (found : members.get? "show" = some value)
    (wrong : WrongList "show" (fun _ problem => problem) IsString (string "show") value problem) :
    WrongExecution (.object members) problem

section WhatIsWrong

variable {α : Type} {kind : Json → Prop} {inside : Nat → Problem → Problem}
  {read : Json → Except Problem α} {field key : Text} {members : Json.Members} {p : Problem}

theorem Accepts.readList_eq_error_iff (h : Accepts read kind) {value : Json} :
    readList field inside read value = .error p ↔ WrongList field inside kind read value p := by
  cases value with
  | array values =>
    have hlist : readList field inside read (.array values) = readEach inside read values := rfl
    rw [hlist, h.readEach_eq_error_iff]
    constructor
    · rintro ⟨index, item, q, hfirst, hitem, rfl⟩
      exact .item hfirst hitem
    · rintro (hno | ⟨hfirst, hitem⟩)
      · exact absurd rfl (hno values)
      · exact ⟨_, _, _, hfirst, hitem, rfl⟩
  | _ =>
    constructor
    · rintro ⟨⟩
      exact .notList nofun
    · rintro ⟨⟩
      rfl

theorem Accepts.readList (h : Accepts read kind) :
    Accepts (readList field inside read) (IsListOf kind) := by
  intro value
  unfold Payload.readList IsListOf
  simp only [bind_eq_ok_iff, items_eq_ok_iff]
  rw [exists_comm]
  simp only [exists_and_left, h.exists_readEach_eq_ok_iff]

theorem require_eq_error_iff {owner : Owner} :
    require owner key members = .error p ↔ members.get? key = none ∧ p = .missing owner key := by
  unfold require
  cases members.get? key <;> simp [eq_comm]

theorem Accepts.exists_require_bind_eq_ok_iff (h : Accepts read kind) {owner : Owner} :
    (∃ a, require owner key members >>= read = .ok a) ↔ Has members key kind := by
  simp only [bind_eq_ok_iff, require_eq_ok_iff]
  rw [exists_comm]
  simp only [exists_and_left, h _, Has]

theorem Accepts.readOptional_eq_error_iff (h : Accepts read kind) :
    readOptional key read members = .error p ↔
      ∃ value, members.get? key = some value ∧ WrongList key (fun _ q => q) kind read value p := by
  unfold readOptional
  cases members.get? key with
  | none => simp
  | some value => simp [h.readList_eq_error_iff]

theorem Accepts.exists_readOptional_eq_ok_iff (h : Accepts read kind) :
    (∃ as, readOptional key read members = .ok as) ↔ MayHave members key (IsListOf kind) := by
  unfold readOptional MayHave
  cases members.get? key with
  | none => simp
  | some value => simp [h.readList _]

end WhatIsWrong

theorem accepts_event : Accepts event IsEvent := fun value => by
  simp only [event_eq_ok_iff, exists_eventOf_iff]

theorem accepts_set : Accepts set IsSet := fun value => by
  simp only [set_eq_ok_iff, exists_setOf_iff]

theorem accepts_relation : Accepts relation IsRelation := fun value => by
  simp only [relation_eq_ok_iff, exists_relationOf_iff]

theorem accepts_string (field : Text) : Accepts (string field) IsString := fun value => by
  simp only [string_eq_ok_iff, exists_stringOf_iff]

theorem accepts_execution : Accepts execution IsExecution := fun value => by
  simp only [execution_eq_ok_iff, exists_executionOf_iff]

/-- **What is found wrong with an execution** is the first thing that is wrong with it. -/
theorem execution_eq_error_iff {value : Json} {p : Problem} :
    execution value = .error p ↔ WrongExecution value p := by
  cases value with
  | object members =>
    rw [execution_object]
    simp only [bind_eq_error_iff, pure_ne_error, and_false, exists_false, or_false, exists_and_right,
      require_eq_error_iff, require_eq_ok_iff, accepts_event.readList_eq_error_iff,
      accepts_set.readOptional_eq_error_iff, accepts_relation.readOptional_eq_error_iff,
      (accepts_string "show").readOptional_eq_error_iff,
      accepts_event.readList.exists_require_bind_eq_ok_iff,
      accepts_set.exists_readOptional_eq_ok_iff, accepts_relation.exists_readOptional_eq_ok_iff]
    constructor
    · rintro ((⟨habsent, rfl⟩ | ⟨events, hfound, hwrong⟩) | ⟨hevents, hrest⟩)
      · exact .noEvents habsent
      · exact .events hfound hwrong
      · rcases hrest with ⟨sets, hfound, hwrong⟩ | ⟨hsets, hrest⟩
        · exact .sets hevents hfound hwrong
        · rcases hrest with ⟨relations, hfound, hwrong⟩ | ⟨hrelations, shown, hfound, hwrong⟩
          · exact .relations hevents hsets hfound hwrong
          · exact .shown hevents hsets hrelations hfound hwrong
    · intro h
      cases h with
      | notObject no_object => exact absurd rfl (no_object members)
      | noEvents habsent => exact .inl (.inl ⟨habsent, rfl⟩)
      | events hfound hwrong => exact .inl (.inr ⟨_, hfound, hwrong⟩)
      | sets hevents hfound hwrong => exact .inr ⟨hevents, .inl ⟨_, hfound, hwrong⟩⟩
      | relations hevents hsets hfound hwrong =>
        exact .inr ⟨hevents, .inr ⟨hsets, .inl ⟨_, hfound, hwrong⟩⟩⟩
      | shown hevents hsets hrelations hfound hwrong =>
        exact .inr ⟨hevents, .inr ⟨hsets, .inr ⟨hrelations, _, hfound, hwrong⟩⟩⟩
  | _ =>
    constructor
    · rintro ⟨⟩
      exact .notObject nofun
    · rintro ⟨⟩
      rfl

/-! ## What is wrong with a list of executions -/

theorem executions_array_eq_ok_iff {values : List Json} {xs : List Execution} :
    executions (.array values) = .ok xs ↔
      List.Forall₂ (fun value x => execution value = .ok x) values xs :=
  readEach_eq_ok_iff

/-- **What is found wrong with a list** is what is wrong with its first bad execution. -/
theorem executions_array_eq_error_iff {values : List Json} {p : Problem} :
    executions (.array values) = .error p ↔
      ∃ index value q, FirstBad IsExecution values index value ∧ WrongExecution value q ∧
        p = .inExecution index q := by
  show readEach .inExecution execution values = .error p ↔ _
  simp only [accepts_execution.readEach_eq_error_iff, execution_eq_error_iff]

/-- A list that is read holds executions only. -/
theorem isExecution_of_executions_array {values : List Json} {xs : List Execution}
    (h : executions (.array values) = .ok xs) : ∀ value ∈ values, IsExecution value :=
  (accepts_execution.exists_readEach_eq_ok_iff values).mp ⟨xs, h⟩

/-- The message of a problem inside an execution tells the execution and the rest apart. -/
theorem Problem.message_inExecution_inj {i j : Nat} {problem : Problem} {rest : Text}
    (h : (inExecution i problem).message = "Execution " ++ Text.ofNat j ++ ": " ++ rest) :
    i = j ∧ problem.message = rest := by
  simp only [message, List.append_assoc] at h
  obtain ⟨hindex, hrest⟩ := Text.ofNat_append_inj rfl rfl (List.append_cancel_left h)
  exact ⟨hindex, List.append_cancel_left hrest⟩

/-- An event that is bad is found, whatever stands behind it. -/
theorem wrongExecution_of_firstBad_event {members : Json.Members} {events : List Json} {k : Nat}
    {item : Json} (found : members.get? "events" = some (.array events))
    (hfirst : FirstBad IsEvent events k item) :
    ∃ q, event item = .error q ∧ WrongExecution (.object members) (.inEvent k q) := by
  obtain ⟨q, hitem⟩ := accepts_event.exists_eq_error hfirst.bad
  exact ⟨q, hitem, .events found (.item hfirst hitem)⟩

/-- **Problems are located.** Lists are read one after the other; the first list that fails decides,
and the number of its bad execution counts the executions of the lists in front of it. The execution that
a problem names is the first bad one, and the problem is the first one in it: the events come before
the sets, the relations and the names to show, and of the events the first bad one is named. -/
theorem problems_are_located (as bs : List Json) :
    (∀ xs ys, executions (.array as) = .ok xs → executions (.array bs) = .ok ys →
      executions (.array (as ++ bs)) = .ok (xs ++ ys)) ∧
    (∀ p, executions (.array as) = .error p → executions (.array (as ++ bs)) = .error p) ∧
    (∀ xs p j m, executions (.array as) = .ok xs → executions (.array bs) = .error p →
      p.message = "Execution " ++ Text.ofNat j ++ ": " ++ m →
      ∃ q, executions (.array (as ++ bs)) = .error q ∧
        q.message = "Execution " ++ Text.ofNat (as.length + j) ++ ": " ++ m) ∧
    (∀ p, executions (.array as) = .error p ↔
      ∃ j value q, FirstBad IsExecution as j value ∧ WrongExecution value q ∧
        p = .inExecution j q) ∧
    (∀ j members events k item, FirstBad IsExecution as j (.object members) →
      Table.get? members "events" = some (.array events) → FirstBad IsEvent events k item →
      ∃ p q, executions (.array as) = .error p ∧ event item = .error q ∧
        p.message = "Execution " ++ Text.ofNat j ++ ": " ++
          ("event " ++ Text.ofNat k ++ ": " ++ q.message)) := by
  refine ⟨fun xs ys hxs hys => ?_, fun p hp => ?_, fun xs p j m hxs hp hm => ?_,
    fun p => executions_array_eq_error_iff, fun j members events k item hj hevents hk => ?_⟩
  · rw [executions_array_eq_ok_iff] at hxs hys ⊢
    exact List.rel_append hxs hys
  · obtain ⟨j, value, q, hfirst, hwrong, rfl⟩ := executions_array_eq_error_iff.mp hp
    exact executions_array_eq_error_iff.mpr ⟨j, value, q, hfirst.append bs, hwrong, rfl⟩
  · obtain ⟨i, value, q, hfirst, hwrong, rfl⟩ := executions_array_eq_error_iff.mp hp
    obtain ⟨rfl, rfl⟩ := Problem.message_inExecution_inj hm
    have hbehind := hfirst.behind (isExecution_of_executions_array hxs)
    exact ⟨.inExecution (as.length + i) q,
      executions_array_eq_error_iff.mpr ⟨_, value, q, hbehind, hwrong, rfl⟩, rfl⟩
  · obtain ⟨q, hitem, hwrong⟩ := wrongExecution_of_firstBad_event hevents hk
    exact ⟨.inExecution j (.inEvent k q), q,
      executions_array_eq_error_iff.mpr ⟨j, _, _, hj, hwrong, rfl⟩, hitem, rfl⟩

/-- An execution with one event and nothing else. -/
def lone : Execution where
  events := [{ instr := none, opcode := "00", po := 0, thread := 1, name := "a", value := none }]
  sets := []
  relations := []
  shown := []

/-- A value with several defects: of its events the second and the third one, and its sets. -/
def defective : Json :=
  .object [("sets", .null), ("events", .array (lone.events.map Event.toJson ++ [.null, .int 5]))]

/-- Behind two executions, of all defects it is the first bad event that is reported. -/
theorem defective_is_located :
    executions (.array ([lone.toJson] ++ [lone.toJson])) = .ok [lone, lone] ∧
      ∃ q, executions (.array ([lone.toJson] ++ [lone.toJson, defective])) = .error q ∧
        q.message = "Execution 2: event 1: Expected an object, got NoneType" := by
  have hlone : executions (.array [lone.toJson]) = .ok [lone] := rfl
  have hexecution : IsExecution lone.toJson := (accepts_execution _).mp ⟨lone, rfl⟩
  have hevent : IsEvent (lone.events.map Event.toJson)[0] := (accepts_event _).mp ⟨_, rfl⟩
  have hnull : ¬ IsEvent .null := accepts_event.not_kind rfl
  have hdefective : ¬ IsExecution defective := accepts_execution.not_kind rfl
  have hfirst : FirstBad IsExecution [lone.toJson, defective] 1 defective :=
    firstBad_cons_iff.mpr (.inr ⟨hexecution, 0, rfl, firstBad_cons_iff.mpr (.inl ⟨hdefective, rfl, rfl⟩)⟩)
  have hsecond : FirstBad IsEvent (lone.events.map Event.toJson ++ [.null, .int 5]) 1 .null :=
    firstBad_cons_iff.mpr (.inr ⟨hevent, 0, rfl, firstBad_cons_iff.mpr (.inl ⟨hnull, rfl, rfl⟩)⟩)
  obtain ⟨p, q, hp, hq, hm⟩ := (problems_are_located [lone.toJson, defective] []).2.2.2.2 _ _ _ _ _
    hfirst rfl hsecond
  obtain rfl : q = .notObject .null := by
    cases hq
    rfl
  obtain ⟨hok, -, herror, -⟩ := problems_are_located [lone.toJson] [lone.toJson]
  obtain ⟨r, hr, hmessage⟩ := (problems_are_located [lone.toJson] [lone.toJson, defective]).2.2.1 _ _ _ _
    hlone hp hm
  exact ⟨hok _ _ hlone hlone, r, hr, hmessage⟩

end Payload

end LitmusGraph
