import LitmusGraph.Payload.Writer
import LitmusGraph.Proofs.Payload.Language

/-!
# Reading undoes writing

Executions written as a payload are read back as they were, with every name, number and text in its
place, whether the payload is their list, has the list under `graphs`, or is one of them alone. A
writer may leave out what the reader takes for granted: the instruction or the value of an event that
has none, and the sets, the relations and the names to show of an execution if there are none. It may
do so in one place and not in another.

The two layouts around a list agree on all other values as well, down to the problem that is found.

Results:
* `Abridges.get?`: what is found under a key of an object that leaves out members.
* `eventOf_of_writtenAs`, `executionOf_of_writtenAs`: what is written spells out what was to be
  written.
* `executions_graphs`, `executions_single`: the layouts agree on all values.
* `executions_of_written`: reading undoes writing.
-/

namespace LitmusGraph

/-! ## Leaving out members -/

/-- `short` holds the members of `full` in their order, without some of the optional ones. -/
inductive Json.Abridges (optional : Json.Members) : (short full : Json.Members) → Prop where
  /-- There are no members. -/
  | nil : Abridges optional [] []
  /-- A member stays. -/
  | keep (m : Text × Json) {short full : Json.Members} (rest : Abridges optional short full) :
    Abridges optional (m :: short) (m :: full)
  /-- A member is left out. -/
  | leave {m : Text × Json} {short full : Json.Members} (may : m ∈ optional)
    (rest : Abridges optional short full) : Abridges optional short (m :: full)

namespace Json.Abridges

variable {optional short full : Json.Members} {key : Text} {value : Json}

/-- Nothing need be left out. -/
theorem refl : ∀ full : Json.Members, Abridges optional full full
  | [] => .nil
  | m :: full => .keep m (refl full)

/-- No key is made up. -/
theorem names_subset (h : Abridges optional short full) : ∀ key ∈ short.names, key ∈ full.names := by
  induction h with
  | nil => exact fun _ hkey => hkey
  | keep m _ ih =>
    intro key hkey
    rcases List.mem_cons.mp hkey with rfl | hkey
    · exact List.mem_cons_self
    · exact List.mem_cons_of_mem _ (ih key hkey)
  | leave _ _ ih => exact fun key hkey => List.mem_cons_of_mem _ (ih key hkey)

/-- **What is found under a key** is what was there, unless that may go and is not there any more. -/
theorem get? (h : Abridges optional short full) (hnames : full.names.Nodup)
    (hfull : full.get? key = some value) :
    short.get? key = some value ∨ short.get? key = none ∧ (key, value) ∈ optional := by
  induction h with
  | nil => exact nomatch hfull
  | @keep m short full _ ih =>
    rw [Table.get?_cons] at hfull ⊢
    by_cases hkey : key = m.1
    · rw [if_pos hkey] at hfull ⊢
      exact .inl hfull
    · rw [if_neg hkey] at hfull ⊢
      exact ih (List.nodup_cons.mp hnames).2 hfull
  | @leave m short full may rest ih =>
    rw [Table.get?_cons] at hfull
    by_cases hkey : key = m.1
    · -- The key stood nowhere else, so nothing is found under it now.
      rw [if_pos hkey] at hfull
      refine .inr ⟨(Table.get?_eq_none_iff _ _).mpr fun hshort => ?_, ?_⟩
      · exact (List.nodup_cons.mp hnames).1 (hkey ▸ rest.names_subset key hshort)
      · rw [← Option.some.inj hfull, hkey]
        exact may
    · rw [if_neg hkey] at hfull
      exact ih (List.nodup_cons.mp hnames).2 hfull

/-- What must stay is found. -/
theorem get?_of_not_mem (h : Abridges optional short full) (hnames : full.names.Nodup)
    (hfull : full.get? key = some value) (hstay : (key, value) ∉ optional) :
    short.get? key = some value := by
  rcases h.get? hnames hfull with hshort | ⟨-, hgo⟩
  · exact hshort
  · exact absurd hgo hstay

end Json.Abridges

/-! ## What is written -/

/-- The members that an event may leave out. -/
def Event.optional : Json.Members := [("instr", .null), ("value", .null)]

/-- An object that an event may be written as. -/
def Event.WrittenAs (e : Event) (value : Json) : Prop :=
  ∃ members, value = .object members ∧ Json.Abridges Event.optional members e.members

/-- The members that an execution may leave out. -/
def Execution.optional : Json.Members :=
  [("sets", .array []), ("relations", .array []), ("show", .array [])]

/-- An object that an execution may be written as. -/
def Execution.WrittenAs (x : Execution) (value : Json) : Prop :=
  ∃ events members, List.Forall₂ Event.WrittenAs x.events events ∧ value = .object members ∧
    Json.Abridges Execution.optional members (x.membersWith events)

/-- Written in full, an event is written. -/
theorem Event.writtenAs_toJson (e : Event) : e.WrittenAs e.toJson :=
  ⟨e.members, rfl, .refl e.members⟩

/-- Written in full, an execution is written. -/
theorem Execution.writtenAs_toJson (x : Execution) : x.WrittenAs x.toJson := by
  refine ⟨x.events.map Event.toJson, _, ?_, rfl, .refl _⟩
  rw [List.forall₂_map_right_iff, List.forall₂_same]
  exact fun e _ => e.writtenAs_toJson

namespace Payload

/-! ## What is written spells out what was to be written -/

/-- An event leaves out nothing but null. -/
theorem eq_null_of_mem_optional {key : Text} {value : Json} (h : (key, value) ∈ Event.optional) :
    value = .null := by
  simp only [Event.optional, List.mem_cons, List.not_mem_nil, or_false, Prod.mk.injEq] at h
  rcases h with h | h <;> exact h.2

/-- An execution leaves out nothing but empty lists. -/
theorem eq_empty_of_mem_optional {key : Text} {value : Json}
    (h : (key, value) ∈ Execution.optional) : value = .array [] := by
  simp only [Execution.optional, List.mem_cons, List.not_mem_nil, or_false, Prod.mk.injEq] at h
  rcases h with h | h | h <;> exact h.2

/-- An execution does not leave out its events. -/
theorem key_ne_events_of_mem_optional {key : Text} {value : Json}
    (h : (key, value) ∈ Execution.optional) : key ≠ "events" := by
  have hkey : key ∈ Execution.optional.names := List.mem_map.mpr ⟨_, h, rfl⟩
  rintro rfl
  exact absurd hkey (by decide)

theorem nodup_names_members (e : Event) : e.members.names.Nodup := by
  have hnames : e.members.names = ["instr", "opcode", "po", "thread_id", "name", "value"] := rfl
  rw [hnames]
  decide

theorem nodup_names_membersWith (x : Execution) (events : List Json) :
    (x.membersWith events).names.Nodup := by
  have hnames : (x.membersWith events).names = ["events", "sets", "relations", "show"] := rfl
  rw [hnames]
  decide

/-- **A written event** spells out the event. -/
theorem eventOf_of_writtenAs {e : Event} {value : Json} (h : e.WrittenAs value) :
    EventOf value e := by
  obtain ⟨members, rfl, h⟩ := h
  have hnames := nodup_names_members e
  have hstay {key : Text} {value : Json} (hfull : e.members.get? key = some value)
      (hvalue : value ≠ .null) : Table.get? members key = some value :=
    h.get?_of_not_mem hnames hfull fun hgo => hvalue (eq_null_of_mem_optional hgo)
  refine ⟨members, rfl, ?_, hstay rfl nofun, hstay rfl nofun, hstay rfl nofun, hstay rfl nofun, ?_⟩
  · have hfull : e.members.get? "instr" = some (Json.ofOption e.instr) := rfl
    rcases h.get? hnames hfull with hinstr | ⟨hinstr, hgo⟩
    · rw [hinstr]
      rfl
    · rw [hinstr, eq_null_of_mem_optional hgo]
      rfl
  · have hfull : e.members.get? "value" = some (Json.ofOption e.value) := rfl
    rcases h.get? hnames hfull with hvalue | ⟨hvalue, hgo⟩
    · rw [hvalue]
      cases e.value with
      | none => exact .null
      | some t => exact .string t
    · rw [hvalue]
      cases he : e.value with
      | none => exact .absent
      | some t =>
        rw [he] at hgo
        exact nomatch eq_null_of_mem_optional hgo

/-- A list written item by item spells out the list. -/
theorem listOf_map {α : Type} {spells : Json → α → Prop} {write : α → Json}
    (h : ∀ a, spells (write a) a) (as : List α) : ListOf spells (.array (as.map write)) as := by
  refine ⟨as.map write, rfl, ?_⟩
  rw [List.forall₂_map_left_iff, List.forall₂_same]
  exact fun a _ => h a

theorem stringOf_string (t : Text) : StringOf (.string t) t := rfl

theorem edgeOf_toJson (e : Edge) : EdgeOf e.toJson e := rfl

theorem setOf_toJson (s : EventSet) : SetOf s.toJson s :=
  ⟨_, rfl, rfl, _, rfl, listOf_map stringOf_string s.elems⟩

theorem relationOf_toJson (r : Relation) : RelationOf r.toJson r :=
  ⟨_, rfl, rfl, _, rfl, listOf_map edgeOf_toJson r.edges⟩

/-- **A written execution** spells out the execution. -/
theorem executionOf_of_writtenAs {x : Execution} {value : Json} (h : x.WrittenAs value) :
    ExecutionOf value x := by
  obtain ⟨events, members, hevents, rfl, h⟩ := h
  have hnames := nodup_names_membersWith x events
  -- A list that is left out is empty, and that is what is taken for granted.
  have hlist {α : Type} {spells : Json → α → Prop} {write : α → Json}
      (hspells : ∀ a, spells (write a) a) {key : Text} {as : List α}
      (hfull : (x.membersWith events).get? key = some (.array (as.map write))) :
      OptionalListOf spells members key as := by
    unfold OptionalListOf
    rcases h.get? hnames hfull with hget | ⟨hget, hgo⟩
    · rw [hget]
      exact listOf_map hspells as
    · rw [hget]
      exact List.map_eq_nil_iff.mp (Json.array.inj (eq_empty_of_mem_optional hgo))
  refine ⟨members, rfl, ⟨.array events, ?_, events, rfl, ?_⟩, hlist setOf_toJson rfl,
    hlist relationOf_toJson rfl, hlist stringOf_string rfl⟩
  · exact h.get?_of_not_mem hnames rfl fun hgo => key_ne_events_of_mem_optional hgo rfl
  · exact hevents.flip.imp fun _ _ he => eventOf_of_writtenAs he

/-! ## The layouts of a payload -/

/-- What stands under `graphs` is read as it is read by itself, unless it is an object. -/
theorem executions_graphs {value : Json} (h : ∀ members, value ≠ .object members) :
    executions (.object [("graphs", value)]) = executions value := by
  have hgraphs : listing (.object [("graphs", value)]) = value := rfl
  have hself : listing value = value := by
    cases value with
    | object members => exact absurd rfl (h members)
    | _ => rfl
  unfold executions
  rw [hgraphs, hself]

/-- An object without `graphs` is read as the list of it alone. -/
theorem executions_single {members : Json.Members} (h : members.get? "graphs" = none) :
    executions (.object members) = executions (.array [.object members]) := by
  have hsingle : listing (.object members) = .array [.object members] := by
    show (Table.get? members "graphs").getD (.array [.object members]) = .array [.object members]
    rw [h]
    rfl
  unfold executions
  rw [hsingle]
  rfl

/-- An execution has nothing under `graphs`. -/
theorem get?_graphs_of_abridges {x : Execution} {events : List Json} {members : Json.Members}
    (h : Json.Abridges Execution.optional members (x.membersWith events)) :
    members.get? "graphs" = none := by
  refine (Table.get?_eq_none_iff _ _).mpr fun hmem => ?_
  have hnames : (x.membersWith events).names = ["events", "sets", "relations", "show"] := rfl
  have hfull := h.names_subset _ hmem
  rw [hnames] at hfull
  exact absurd hfull (by decide)

/-- **Reading undoes writing.** Executions that are written as a list are read back as they were, be
the list the payload or under `graphs`, and one that is written alone is read back as the only one.
That holds with all members and without any of the optional ones. Apart from what is written, a value
that is no object is read under `graphs` as it is read by itself, and an object without `graphs` as
the list of it alone, with the same executions or the same problem. -/
theorem executions_of_written :
    (∀ xs : List Execution, executions (ofExecutions xs) = .ok xs ∧
      executions (.object [("graphs", ofExecutions xs)]) = .ok xs) ∧
    (∀ (xs : List Execution) (values : List Json), List.Forall₂ Execution.WrittenAs xs values →
      executions (.array values) = .ok xs ∧
      executions (.object [("graphs", .array values)]) = .ok xs) ∧
    (∀ (x : Execution) (value : Json), x.WrittenAs value → executions value = .ok [x]) ∧
    (∀ value : Json, (∀ members, value ≠ .object members) →
      executions (.object [("graphs", value)]) = executions value) ∧
    (∀ members : Json.Members, members.get? "graphs" = none →
      executions (.object members) = executions (.array [.object members])) := by
  have hlist (xs : List Execution) (values : List Json) (h : List.Forall₂ Execution.WrittenAs xs values) :
      executions (.array values) = .ok xs ∧
        executions (.object [("graphs", .array values)]) = .ok xs := by
    have hread : executions (.array values) = .ok xs :=
      executions_eq_ok_iff.mpr (.list ⟨values, rfl, h.flip.imp fun _ _ hx => executionOf_of_writtenAs hx⟩)
    have hgraphs : executions (.object [("graphs", .array values)]) = executions (.array values) :=
      executions_graphs nofun
    exact ⟨hread, hgraphs.trans hread⟩
  refine ⟨fun xs => hlist xs _ ?_, hlist, fun x value h => ?_, fun _ => executions_graphs,
    fun _ => executions_single⟩
  · rw [List.forall₂_map_right_iff, List.forall₂_same]
    exact fun x _ => x.writtenAs_toJson
  · have hx := executionOf_of_writtenAs h
    obtain ⟨events, members, -, rfl, h⟩ := h
    exact executions_eq_ok_iff.mpr (.single (get?_graphs_of_abridges h) hx)

/-- An event without an instruction, with a lone surrogate for an opcode, that observed the empty
text. -/
def bareEvent : Event where
  instr := none
  opcode := [{ val := 0xD800 }]
  po := 1000000000000000000000000000000
  thread := -1
  name := []
  value := some []

/-- An execution with the event and two relations of one name. -/
def bareRead : Execution where
  events := [bareEvent]
  sets := []
  relations :=
    [{ name := "rf", edges := [] }, { name := "rf", edges := [{ source := [], target := "a" }] }]
  shown := []

/-- The execution, written without what may be left out, but with its empty list of sets. -/
def bareReadBrief : Json :=
  .object [("events", .array [.object bareEvent.members.tail]), ("sets", .array []),
    ("relations", .array (bareRead.relations.map Relation.toJson))]

/-- **The execution is read back**, in full and in brief, in a list and alone. -/
theorem bareRead_of_written :
    bareRead.WrittenAs bareReadBrief ∧
      executions (.array [bareReadBrief, bareRead.toJson]) = .ok [bareRead, bareRead] ∧
      executions bareReadBrief = .ok [bareRead] ∧
      executions (.object [("graphs", .null)]) = executions .null ∧
      executions (.object []) = executions (.array [.object []]) := by
  have hevent : bareEvent.WrittenAs (.object bareEvent.members.tail) :=
    ⟨_, rfl, .leave List.mem_cons_self (.refl _)⟩
  have hshow : (Text.ofString "show", Json.array []) ∈ Execution.optional := .tail _ (.tail _ (.head _))
  have hbrief : bareRead.WrittenAs bareReadBrief :=
    ⟨_, _, .cons hevent .nil, rfl, .keep _ (.keep _ (.keep _ (.leave hshow .nil)))⟩
  obtain ⟨-, hlist, hsingle, hgraphs, hobject⟩ := executions_of_written
  exact ⟨hbrief, (hlist _ _ (.cons hbrief (.cons bareRead.writtenAs_toJson .nil))).1,
    hsingle _ _ hbrief, hgraphs _ nofun, hobject _ rfl⟩

end Payload

end LitmusGraph
