import LitmusGraph.Payload.Reader
import LitmusGraph.Payload.Writer
import Mathlib.Data.List.Forall2

/-!
# The language of payloads

What a payload looks like, and what it says. `IsPayload` is the grammar: which members an object
must have and which it may have, and of which kind their values are. `PayloadOf` goes along the same
lines and says which executions a payload spells out: every list keeps its order and its length,
and the observed value of an event is kept as text.

Results:
* `bind_eq_ok_iff`, `mapM_eq_ok_iff`, `readEach_eq_ok_iff`: when a reading in steps succeeds.
* `event_eq_ok_iff`, `set_eq_ok_iff`, `relation_eq_ok_iff`, `execution_eq_ok_iff`: what is read of
  each kind of object.
* `executions_eq_ok_iff`, `exists_payloadOf_iff`: what is read of a payload, and what can be read.
* `executions_reads_payloads`: the reader accepts the language, and loses nothing.
-/

namespace LitmusGraph

namespace Payload

/-! ## The grammar -/

/-- An object has a value of a kind under a key. -/
def Has (members : Json.Members) (key : Text) (kind : Json → Prop) : Prop :=
  ∃ value, members.get? key = some value ∧ kind value

/-- The value under a key is of a kind, if an object has one there. -/
def MayHave (members : Json.Members) (key : Text) (kind : Json → Prop) : Prop :=
  ∀ value, members.get? key = some value → kind value

/-- A string. -/
def IsString (value : Json) : Prop := ∃ t, value = .string t

/-- A whole number. -/
def IsInteger (value : Json) : Prop := ∃ n, value = .int n

/-- A list of values of a kind. -/
def IsListOf (kind : Json → Prop) (value : Json) : Prop :=
  ∃ items, value = .array items ∧ ∀ item ∈ items, kind item

/-- An event: an object with an opcode, a name and two whole numbers, and an instruction or null. -/
def IsEvent (value : Json) : Prop :=
  ∃ members : Json.Members, value = .object members ∧
    Has members "opcode" IsString ∧ Has members "name" IsString ∧
    Has members "po" IsInteger ∧ Has members "thread_id" IsInteger ∧
    MayHave members "instr" fun instr => instr = .null ∨ IsString instr

/-- A set: an object with a name and a list of strings. -/
def IsSet (value : Json) : Prop :=
  ∃ members : Json.Members, value = .object members ∧
    Has members "name" IsString ∧ Has members "elems" (IsListOf IsString)

/-- An edge: a list of two strings. -/
def IsEdge (value : Json) : Prop := ∃ source target, value = .array [.string source, .string target]

/-- A relation: an object with a name and a list of edges. -/
def IsRelation (value : Json) : Prop :=
  ∃ members : Json.Members, value = .object members ∧
    Has members "name" IsString ∧ Has members "edges" (IsListOf IsEdge)

/-- An execution: an object with a list of events, and perhaps lists of sets, relations and names. -/
def IsExecution (value : Json) : Prop :=
  ∃ members : Json.Members, value = .object members ∧
    Has members "events" (IsListOf IsEvent) ∧ MayHave members "sets" (IsListOf IsSet) ∧
    MayHave members "relations" (IsListOf IsRelation) ∧ MayHave members "show" (IsListOf IsString)

/-- A payload: a list of executions, an object that has one under `graphs`, or a single execution
that has nothing there. -/
inductive IsPayload : Json → Prop where
  /-- A list of executions. -/
  | list {value : Json} (executions : IsListOf IsExecution value) : IsPayload value
  /-- A list of executions inside an object. -/
  | graphs {members : Json.Members} (executions : Has members "graphs" (IsListOf IsExecution)) :
    IsPayload (.object members)
  /-- A single execution. -/
  | single {members : Json.Members} (absent : members.get? "graphs" = none)
    (execution : IsExecution (.object members)) : IsPayload (.object members)

/-! ## The meaning -/

/-- A list that spells out things one by one. -/
def ListOf {α : Type} (spells : Json → α → Prop) (value : Json) (as : List α) : Prop :=
  ∃ items, value = .array items ∧ List.Forall₂ spells items as

/-- A list under a key, which spells out nothing if it is absent. -/
def OptionalListOf {α : Type} (spells : Json → α → Prop) (members : Json.Members) (key : Text)
    (as : List α) : Prop :=
  match members.get? key with
  | none => as = []
  | some value => ListOf spells value as

/-- A string spells out its text. -/
def StringOf (value : Json) (t : Text) : Prop := value = .string t

/-- An observed value as text: a string as it is, anything else but null as it is displayed. -/
inductive ObservedOf : Option Json → Option Text → Prop where
  /-- No value. -/
  | absent : ObservedOf none none
  /-- Null in place of a value. -/
  | null : ObservedOf (some .null) none
  /-- A string. -/
  | string (t : Text) : ObservedOf (some (.string t)) (some t)
  /-- A value of another kind. -/
  | other {value : Json} (not_null : value ≠ .null) (not_string : ¬ IsString value) :
    ObservedOf (some value) (some value.display)

/-- An object that spells out an event. -/
def EventOf (value : Json) (e : Event) : Prop :=
  ∃ members : Json.Members, value = .object members ∧
    (members.get? "instr").getD .null = Json.ofOption e.instr ∧
    members.get? "opcode" = some (.string e.opcode) ∧ members.get? "po" = some (.int e.po) ∧
    members.get? "thread_id" = some (.int e.thread) ∧ members.get? "name" = some (.string e.name) ∧
    ObservedOf (members.get? "value") e.value

/-- An object that spells out a set. -/
def SetOf (value : Json) (s : EventSet) : Prop :=
  ∃ members : Json.Members, value = .object members ∧ members.get? "name" = some (.string s.name) ∧
    ∃ elems, members.get? "elems" = some elems ∧ ListOf StringOf elems s.elems

/-- A list that spells out an edge. -/
def EdgeOf (value : Json) (e : Edge) : Prop := value = .array [.string e.source, .string e.target]

/-- An object that spells out a relation. -/
def RelationOf (value : Json) (r : Relation) : Prop :=
  ∃ members : Json.Members, value = .object members ∧ members.get? "name" = some (.string r.name) ∧
    ∃ edges, members.get? "edges" = some edges ∧ ListOf EdgeOf edges r.edges

/-- An object that spells out an execution. -/
def ExecutionOf (value : Json) (x : Execution) : Prop :=
  ∃ members : Json.Members, value = .object members ∧
    (∃ events, members.get? "events" = some events ∧ ListOf EventOf events x.events) ∧
    OptionalListOf SetOf members "sets" x.sets ∧
    OptionalListOf RelationOf members "relations" x.relations ∧
    OptionalListOf StringOf members "show" x.shown

/-- A payload that spells out executions. -/
inductive PayloadOf : Json → List Execution → Prop where
  /-- A list. -/
  | list {value : Json} {xs : List Execution} (executions : ListOf ExecutionOf value xs) :
    PayloadOf value xs
  /-- A list inside an object. -/
  | graphs {members : Json.Members} {value : Json} {xs : List Execution}
    (found : members.get? "graphs" = some value) (executions : ListOf ExecutionOf value xs) :
    PayloadOf (.object members) xs
  /-- A single execution. -/
  | single {members : Json.Members} {x : Execution} (absent : members.get? "graphs" = none)
    (execution : ExecutionOf (.object members) x) : PayloadOf (.object members) [x]

/-! ## Readings in steps -/

section Steps

variable {ε ε' α β : Type}

theorem bind_eq_ok_iff {r : Except ε α} {f : α → Except ε β} {b : β} :
    r >>= f = .ok b ↔ ∃ a, r = .ok a ∧ f a = .ok b := by
  cases r <;> simp [bind, Except.bind]

theorem pure_eq_ok_iff {a b : α} : (pure a : Except ε α) = .ok b ↔ a = b := by
  simp [pure, Except.pure]

theorem mapError_eq_ok_iff {r : Except ε α} {wrap : ε → ε'} {a : α} :
    r.mapError wrap = .ok a ↔ r = .ok a := by
  cases r <;> simp [Except.mapError]

theorem toOption_eq_some_iff {r : Except ε α} {a : α} : r.toOption = some a ↔ r = .ok a := by
  cases r <;> simp [Except.toOption]

/-- **A list is read** if each of its items is. -/
theorem mapM_eq_ok_iff {γ : Type} {read : γ → Except ε α} {values : List γ} {as : List α} :
    values.mapM read = .ok as ↔ List.Forall₂ (fun value a => read value = .ok a) values as := by
  induction values generalizing as with
  | nil =>
    rw [List.mapM_nil, pure_eq_ok_iff, List.forall₂_nil_left_iff, eq_comm]
  | cons value values ih =>
    rw [List.mapM_cons, List.forall₂_cons_left_iff]
    simp only [bind_eq_ok_iff, pure_eq_ok_iff, ih]
    constructor
    · rintro ⟨a, ha, rest, hrest, rfl⟩
      exact ⟨a, rest, ha, hrest, rfl⟩
    · rintro ⟨a, rest, ha, hrest, rfl⟩
      exact ⟨a, ha, rest, hrest, rfl⟩

/-- Naming the item of a problem does not matter where there is none. -/
theorem readEach_eq_ok_iff {inside : Nat → Problem → Problem} {read : Json → Except Problem α}
    {values : List Json} {as : List α} :
    readEach inside read values = .ok as ↔
      List.Forall₂ (fun value a => read value = .ok a) values as := by
  unfold readEach
  simp only [mapM_eq_ok_iff, mapError_eq_ok_iff]
  generalize 0 = start
  induction values generalizing start as with
  | nil => simp
  | cons value values ih => simp [List.zipIdx_cons, List.forall₂_cons_left_iff, ih]

end Steps

/-! ## What is read -/

theorem string_eq_ok_iff (field : Text) {value : Json} {t : Text} :
    string field value = .ok t ↔ StringOf value t := by
  cases value <;> simp [string, StringOf]

theorem integer_eq_ok_iff {field : Text} {value : Json} {n : Int} :
    integer field value = .ok n ↔ value = .int n := by
  cases value <;> simp [integer]

theorem items_eq_ok_iff {field : Text} {value : Json} {values : List Json} :
    items field value = .ok values ↔ value = .array values := by
  cases value <;> simp [items]

theorem require_eq_ok_iff {owner : Owner} {key : Text} {members : Json.Members} {value : Json} :
    require owner key members = .ok value ↔ members.get? key = some value := by
  unfold require
  cases members.get? key <;> simp

theorem instr?_eq_ok_iff {members : Json.Members} {instr : Option Text} :
    instr? members = .ok instr ↔ (members.get? "instr").getD .null = Json.ofOption instr := by
  unfold instr?
  cases members.get? "instr" with
  | none => cases instr <;> simp [Json.ofOption]
  | some value => cases value <;> cases instr <;> simp [Json.ofOption, string, Except.map]

theorem observed?_eq_iff {members : Json.Members} {observed : Option Text} :
    observed? members = observed ↔ ObservedOf (members.get? "value") observed := by
  unfold observed?
  constructor
  · rintro rfl
    cases members.get? "value" with
    | none => exact .absent
    | some value =>
      cases value with
      | null => exact .null
      | string t => exact .string t
      | bool | int | float | array | object => exact .other nofun nofun
  · intro h
    generalize members.get? "value" = found at h
    cases h with
    | absent | null | string => rfl
    | @other value not_null not_string =>
      cases value with
      | null => exact absurd rfl not_null
      | string t => exact absurd ⟨t, rfl⟩ not_string
      | bool | int | float | array | object => rfl

theorem event_eq_ok_iff {value : Json} {e : Event} : event value = .ok e ↔ EventOf value e := by
  cases value with
  | null | bool | int | float | string | array => simp [event, EventOf]
  | object members =>
    simp only [event, EventOf, bind_eq_ok_iff, pure_eq_ok_iff, require_eq_ok_iff, string_eq_ok_iff,
      integer_eq_ok_iff, instr?_eq_ok_iff, StringOf]
    constructor
    · rintro ⟨instr, hinstr, opcode', hopcode, opcode, rfl, po', hpo, po, rfl, thread', hthread,
        thread, rfl, name', hname, name, rfl, rfl⟩
      exact ⟨members, rfl, hinstr, hopcode, hpo, hthread, hname, observed?_eq_iff.mp rfl⟩
    · rintro ⟨_, ⟨⟩, hinstr, hopcode, hpo, hthread, hname, hobserved⟩
      refine ⟨_, hinstr, _, hopcode, _, rfl, _, hpo, _, rfl, _, hthread, _, rfl, _, hname, _, rfl, ?_⟩
      rw [observed?_eq_iff.mpr hobserved]

theorem set_eq_ok_iff {value : Json} {s : EventSet} : set value = .ok s ↔ SetOf value s := by
  cases value with
  | null | bool | int | float | string | array => simp [set, SetOf]
  | object members =>
    simp only [set, SetOf, ListOf, bind_eq_ok_iff, pure_eq_ok_iff, require_eq_ok_iff, string_eq_ok_iff,
      items_eq_ok_iff, mapM_eq_ok_iff]
    constructor
    · rintro ⟨_, hname, name, rfl, elems, helems, values, rfl, ts, hts, rfl⟩
      exact ⟨members, rfl, hname, _, helems, values, rfl, hts⟩
    · rintro ⟨_, ⟨⟩, hname, _, helems, values, rfl, hts⟩
      exact ⟨_, hname, _, rfl, _, helems, values, rfl, _, hts, rfl⟩

theorem edge_eq_ok_iff {relation : Text} {value : Json} {e : Edge} :
    edge relation value = .ok e ↔ EdgeOf value e := by
  unfold edge EdgeOf
  split
  · simp only [bind_eq_ok_iff, pure_eq_ok_iff, string_eq_ok_iff, StringOf]
    constructor
    · rintro ⟨source, rfl, target, rfl, rfl⟩
      rfl
    · intro h
      cases h
      exact ⟨_, rfl, _, rfl, rfl⟩
  · next hpair =>
    refine iff_of_false nofun fun h => hpair _ _ h

theorem relation_eq_ok_iff {value : Json} {r : Relation} :
    relation value = .ok r ↔ RelationOf value r := by
  cases value with
  | null | bool | int | float | string | array => simp [relation, RelationOf]
  | object members =>
    simp only [relation, RelationOf, ListOf, bind_eq_ok_iff, pure_eq_ok_iff, require_eq_ok_iff,
      string_eq_ok_iff, items_eq_ok_iff, mapM_eq_ok_iff, edge_eq_ok_iff]
    constructor
    · rintro ⟨_, hname, name, rfl, edges, hedges, values, rfl, es, hes, rfl⟩
      exact ⟨members, rfl, hname, _, hedges, values, rfl, hes⟩
    · rintro ⟨_, ⟨⟩, hname, _, hedges, values, rfl, hes⟩
      exact ⟨_, hname, _, rfl, _, hedges, values, rfl, _, hes, rfl⟩

/-- An optional list is read as what it spells out. -/
theorem optional_eq_ok_iff {α : Type} {read : Json → Except Problem α} {spells : Json → α → Prop}
    (hread : ∀ value a, read value = .ok a ↔ spells value a) {members : Json.Members} {key : Text}
    {as : List α} :
    (∃ values, optionalItems key members = .ok values ∧ values.mapM read = .ok as) ↔
      OptionalListOf spells members key as := by
  unfold optionalItems OptionalListOf ListOf
  cases members.get? key with
  | none => simp [mapM_eq_ok_iff]
  | some value => simp [items_eq_ok_iff, mapM_eq_ok_iff, hread]

theorem execution_eq_ok_iff {value : Json} {x : Execution} :
    execution value = .ok x ↔ ExecutionOf value x := by
  cases value with
  | null | bool | int | float | string | array => simp [execution, ExecutionOf]
  | object members =>
    simp only [ExecutionOf, ← optional_eq_ok_iff fun _ _ => set_eq_ok_iff,
      ← optional_eq_ok_iff fun _ _ => relation_eq_ok_iff,
      ← optional_eq_ok_iff fun _ _ => string_eq_ok_iff "show"]
    simp only [execution, ListOf, bind_eq_ok_iff, pure_eq_ok_iff, require_eq_ok_iff, items_eq_ok_iff,
      readEach_eq_ok_iff, event_eq_ok_iff]
    constructor
    · rintro ⟨_, hevents, values, rfl, events, hes, _, hsets, sets, hss, _, hrelations, relations, hrs,
        _, hshow, shown, hts, rfl⟩
      exact ⟨members, rfl, ⟨_, hevents, values, rfl, hes⟩, ⟨_, hsets, hss⟩, ⟨_, hrelations, hrs⟩,
        _, hshow, hts⟩
    · rintro ⟨_, ⟨⟩, ⟨_, hevents, values, rfl, hes⟩, ⟨_, hsets, hss⟩, ⟨_, hrelations, hrs⟩, _, hshow,
        hts⟩
      exact ⟨_, hevents, values, rfl, _, hes, _, hsets, _, hss, _, hrelations, _, hrs, _, hshow, _, hts,
        rfl⟩

/-- What is read of a value that should list executions. -/
theorem executions_eq_ok_iff_listing {payload : Json} {xs : List Execution} :
    executions payload = .ok xs ↔ ListOf ExecutionOf (listing payload) xs := by
  unfold executions ListOf
  cases listing payload with
  | null | bool | int | float | string | object => simp
  | array values => simp [readEach_eq_ok_iff, execution_eq_ok_iff]

/-- **What is read of a payload** is what it spells out. -/
theorem executions_eq_ok_iff {payload : Json} {xs : List Execution} :
    executions payload = .ok xs ↔ PayloadOf payload xs := by
  rw [executions_eq_ok_iff_listing]
  constructor
  · intro h
    cases payload with
    | null | bool | int | float | string | array => exact .list h
    | object members =>
      cases hgraphs : Table.get? members "graphs" with
      | none =>
        rw [listing, hgraphs] at h
        obtain ⟨_, ⟨⟩, hitems⟩ := h
        cases hitems with
        | cons hx hrest =>
        cases hrest
        exact .single hgraphs hx
      | some value =>
        rw [listing, hgraphs] at h
        exact .graphs hgraphs h
  · intro h
    cases h with
    | list h =>
      obtain ⟨values, rfl, hitems⟩ := h
      exact ⟨values, rfl, hitems⟩
    | graphs found h =>
      show ListOf ExecutionOf (Option.getD (Table.get? _ "graphs") _) xs
      rw [found]
      exact h
    | single absent h =>
      show ListOf ExecutionOf (Option.getD (Table.get? _ "graphs") _) _
      rw [absent]
      exact ⟨_, rfl, .cons h .nil⟩

/-! ## What can be read -/

section Exists

variable {α : Type} {spells : Json → α → Prop} {kind : Json → Prop}

/-- Each item of a list spells out something if all of them are of the kind that does. -/
theorem exists_forall₂_iff (h : ∀ value, (∃ a, spells value a) ↔ kind value) (items : List Json) :
    (∃ as, List.Forall₂ spells items as) ↔ ∀ item ∈ items, kind item := by
  induction items with
  | nil => simp
  | cons item items ih =>
    rw [List.forall_mem_cons, ← ih, ← h]
    constructor
    · rintro ⟨_, hitems⟩
      cases hitems with
      | cons ha has => exact ⟨⟨_, ha⟩, _, has⟩
    · rintro ⟨⟨a, ha⟩, as, has⟩
      exact ⟨a :: as, .cons ha has⟩

theorem exists_listOf_iff (h : ∀ value, (∃ a, spells value a) ↔ kind value) (value : Json) :
    (∃ as, ListOf spells value as) ↔ IsListOf kind value := by
  unfold ListOf IsListOf
  rw [exists_comm]
  simp only [exists_and_left, exists_forall₂_iff h]

theorem exists_optionalListOf_iff (h : ∀ value, (∃ a, spells value a) ↔ kind value)
    (members : Json.Members) (key : Text) :
    (∃ as, OptionalListOf spells members key as) ↔ MayHave members key (IsListOf kind) := by
  unfold OptionalListOf MayHave
  cases members.get? key with
  | none => simp
  | some value => simp [exists_listOf_iff h]

theorem exists_has_listOf_iff (h : ∀ value, (∃ a, spells value a) ↔ kind value)
    (members : Json.Members) (key : Text) :
    (∃ as value, members.get? key = some value ∧ ListOf spells value as) ↔
      Has members key (IsListOf kind) := by
  rw [exists_comm]
  simp only [exists_and_left, exists_listOf_iff h, Has]

end Exists

theorem exists_stringOf_iff (value : Json) : (∃ t, StringOf value t) ↔ IsString value := Iff.rfl

theorem exists_observedOf (found : Option Json) : ∃ observed, ObservedOf found observed := by
  cases found with
  | none => exact ⟨_, .absent⟩
  | some value =>
    cases value with
    | null => exact ⟨_, .null⟩
    | string t => exact ⟨_, .string t⟩
    | bool | int | float | array | object => exact ⟨_, .other nofun nofun⟩

theorem exists_instr_iff (members : Json.Members) (key : Text):
    (∃ instr, (members.get? key).getD .null = Json.ofOption instr) ↔
      MayHave members key fun instr => instr = .null ∨ IsString instr := by
  unfold MayHave IsString
  cases members.get? key with
  | none => exact iff_of_true ⟨none, rfl⟩ nofun
  | some value =>
    constructor
    · rintro ⟨instr, h⟩ _ ⟨⟩
      cases instr with
      | none => exact .inl h
      | some t => exact .inr ⟨t, h⟩
    · intro h
      obtain rfl | ⟨t, rfl⟩ := h value rfl
      · exact ⟨none, rfl⟩
      · exact ⟨some t, rfl⟩

theorem exists_eventOf_iff (value : Json) : (∃ e, EventOf value e) ↔ IsEvent value := by
  constructor
  · rintro ⟨e, members, rfl, hinstr, hopcode, hpo, hthread, hname, -⟩
    exact ⟨members, rfl, ⟨_, hopcode, _, rfl⟩, ⟨_, hname, _, rfl⟩, ⟨_, hpo, _, rfl⟩,
      ⟨_, hthread, _, rfl⟩, (exists_instr_iff members "instr").mp ⟨_, hinstr⟩⟩
  · rintro ⟨members, rfl, ⟨_, hopcode, opcode, rfl⟩, ⟨_, hname, name, rfl⟩, ⟨_, hpo, po, rfl⟩,
      ⟨_, hthread, thread, rfl⟩, hinstr⟩
    obtain ⟨instr, hinstr⟩ := (exists_instr_iff members "instr").mpr hinstr
    obtain ⟨observed, hobserved⟩ := exists_observedOf (members.get? "value")
    exact ⟨⟨instr, opcode, po, thread, name, observed⟩, members, rfl, hinstr, hopcode, hpo, hthread,
      hname, hobserved⟩

theorem exists_setOf_iff (value : Json) : (∃ s, SetOf value s) ↔ IsSet value := by
  constructor
  · rintro ⟨s, members, rfl, hname, helems⟩
    exact ⟨members, rfl, ⟨_, hname, _, rfl⟩,
      (exists_has_listOf_iff exists_stringOf_iff members "elems").mp ⟨_, helems⟩⟩
  · rintro ⟨members, rfl, ⟨_, hname, name, rfl⟩, helems⟩
    obtain ⟨elems, helems⟩ := (exists_has_listOf_iff exists_stringOf_iff members "elems").mpr helems
    exact ⟨⟨name, elems⟩, members, rfl, hname, helems⟩

theorem exists_edgeOf_iff (value : Json) : (∃ e, EdgeOf value e) ↔ IsEdge value := by
  constructor
  · rintro ⟨e, h⟩
    exact ⟨_, _, h⟩
  · rintro ⟨source, target, h⟩
    exact ⟨⟨source, target⟩, h⟩

theorem exists_relationOf_iff (value : Json) : (∃ r, RelationOf value r) ↔ IsRelation value := by
  constructor
  · rintro ⟨r, members, rfl, hname, hedges⟩
    exact ⟨members, rfl, ⟨_, hname, _, rfl⟩,
      (exists_has_listOf_iff exists_edgeOf_iff members "edges").mp ⟨_, hedges⟩⟩
  · rintro ⟨members, rfl, ⟨_, hname, name, rfl⟩, hedges⟩
    obtain ⟨edges, hedges⟩ := (exists_has_listOf_iff exists_edgeOf_iff members "edges").mpr hedges
    exact ⟨⟨name, edges⟩, members, rfl, hname, hedges⟩

theorem exists_executionOf_iff (value : Json) : (∃ x, ExecutionOf value x) ↔ IsExecution value := by
  unfold IsExecution
  simp only [← exists_has_listOf_iff exists_eventOf_iff, ← exists_optionalListOf_iff exists_setOf_iff,
    ← exists_optionalListOf_iff exists_relationOf_iff, ← exists_optionalListOf_iff exists_stringOf_iff]
  constructor
  · rintro ⟨x, members, rfl, hevents, hsets, hrelations, hshown⟩
    exact ⟨members, rfl, ⟨_, hevents⟩, ⟨_, hsets⟩, ⟨_, hrelations⟩, _, hshown⟩
  · rintro ⟨members, rfl, ⟨events, hevents⟩, ⟨sets, hsets⟩, ⟨relations, hrelations⟩, shown, hshown⟩
    exact ⟨⟨events, sets, relations, shown⟩, members, rfl, hevents, hsets, hrelations, hshown⟩

/-- **A payload is what spells out executions.** -/
theorem exists_payloadOf_iff (payload : Json) : (∃ xs, PayloadOf payload xs) ↔ IsPayload payload := by
  constructor
  · rintro ⟨xs, hlist | ⟨found, hgraphs⟩ | ⟨absent, hx⟩⟩
    · exact .list ((exists_listOf_iff exists_executionOf_iff _).mp ⟨_, hlist⟩)
    · exact .graphs ⟨_, found, (exists_listOf_iff exists_executionOf_iff _).mp ⟨_, hgraphs⟩⟩
    · exact .single absent ((exists_executionOf_iff _).mp ⟨_, hx⟩)
  · rintro (hlist | ⟨value, found, hgraphs⟩ | ⟨absent, hx⟩)
    · obtain ⟨xs, hxs⟩ := (exists_listOf_iff exists_executionOf_iff _).mpr hlist
      exact ⟨xs, .list hxs⟩
    · obtain ⟨xs, hxs⟩ := (exists_listOf_iff exists_executionOf_iff _).mpr hgraphs
      exact ⟨xs, .graphs found hxs⟩
    · obtain ⟨x, hx⟩ := (exists_executionOf_iff _).mpr hx
      exact ⟨[x], .single absent hx⟩

/-- What can be read is a payload. -/
theorem exists_executions_eq_ok_iff (payload : Json) :
    (∃ xs, executions payload = .ok xs) ↔ IsPayload payload := by
  simp only [executions_eq_ok_iff, exists_payloadOf_iff]

theorem exists_executions_eq_error_iff (payload : Json) :
    (∃ problem, executions payload = .error problem) ↔ ¬ IsPayload payload := by
  rw [← exists_executions_eq_ok_iff]
  cases executions payload <;> simp

/-- **The reader accepts exactly the payloads, and loses nothing.** A value is read if and only if it
is a payload, the executions read are those that it spells out, and there are no others. Whatever
else is refused with a problem of its format. -/
theorem executions_reads_payloads (payload : Json) :
    ((∃ xs, executions payload = .ok xs) ↔ IsPayload payload) ∧
      (∀ xs, executions payload = .ok xs ↔ PayloadOf payload xs) ∧
      ((∃ problem, executions payload = .error problem) ↔ ¬ IsPayload payload) :=
  ⟨exists_executions_eq_ok_iff payload, fun _ => executions_eq_ok_iff,
    exists_executions_eq_error_iff payload⟩

end Payload

end LitmusGraph
