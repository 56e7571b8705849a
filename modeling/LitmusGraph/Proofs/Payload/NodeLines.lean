import LitmusGraph.Proofs.Drawing.Unambiguous
import LitmusGraph.Proofs.Json.Display
import LitmusGraph.Proofs.Payload.Language

/-!
# From an event object to its node

What is drawn of an event can be told from its object in the payload. The node has the name of the
object and a label of one line or two: the instruction, or the opcode where the instruction has nothing
to read, and then the value as text. A value takes its line if there is one, other than null and the
empty string. The reader takes null for no value, and the drawing leaves out a value without text; the
empty string is the only value without text, so nothing else gets lost between the two.

Results:
* `label_eq_labelAt`, `valueLine_eq_valueLineAt`: label and value of an event, told from its object.
* `EventOf.drawnAs`: the node of an event, told from its object.
* `filter_isNode_drawing`: the nodes of a drawing.
* `observed_values_are_drawn`: **no value is lost** between a payload and its drawing.
-/

namespace LitmusGraph

namespace Payload

/-! ## What an object says -/

/-- The string under a key, or nothing if there is none. -/
def stringAt (members : Json.Members) (key : Text) : Text :=
  match members.get? key with
  | some (.string t) => t
  | _ => []

/-- The thread of an event object. -/
def threadAt (members : Json.Members) : Int :=
  match members.get? "thread_id" with
  | some (.int n) => n
  | _ => 0

/-- The first line of a label: the instruction if it is a string with something to read, and else the
opcode. -/
def labelAt (members : Json.Members) : Text :=
  match members.get? "instr" with
  | some (.string (c :: rest)) => c :: rest
  | _ => stringAt members "opcode"

/-- The second line of a label with the break in front of it: the value as text, unless it is absent,
null or the empty string. -/
def valueLineAt (members : Json.Members) : Text :=
  match members.get? "value" with
  | none | some .null | some (.string []) => []
  | some value => "\\l" ++ value.toText

/-- The line of the node that an event object asks for. -/
def nodeLine (members : Json.Members) : Text :=
  "    " ++ stringAt members "name" ++ " [shape=box,label=\"" ++ labelAt members
    ++ valueLineAt members ++ "\"];"

end Payload

/-! ## What is drawn of an event -/

/-- The second line of a label for the value of an event. -/
def Event.valueLine (e : Event) : Text :=
  match e.value with
  | none | some [] => []
  | some value => "\\l" ++ value

theorem Statement.toText_ofEvent (e : Event) :
    (ofEvent e).toText =
      "    " ++ e.name ++ " [shape=box,label=\"" ++ e.label ++ e.valueLine ++ "\"];" := by
  unfold ofEvent Event.valueLine
  match e.value with
  | none | some [] =>
    rw [List.append_nil]
    rfl
  | some (c :: rest) =>
    rw [← List.append_assoc]
    rfl

namespace Payload

variable {members : Json.Members} {e : Event}

theorem stringAt_eq {key t : Text} (h : members.get? key = some (.string t)) :
    stringAt members key = t := by
  rw [stringAt, h]

/-- What the drawing of an event needs of its object: the thread that it is drawn for, and the line of
its node. -/
structure DrawnAs (members : Json.Members) (e : Event) : Prop where
  thread : threadAt members = e.thread
  line : nodeLine members = (Statement.ofEvent e).toText

/-- The label of an event is the one that its object asks for: an instruction that is null or has
nothing to read gives way to the opcode. -/
theorem label_eq_labelAt (hinstr : (members.get? "instr").getD .null = Json.ofOption e.instr)
    (hopcode : members.get? "opcode" = some (.string e.opcode)) : e.label = labelAt members := by
  unfold Event.label labelAt
  rw [stringAt_eq hopcode]
  cases hget : members.get? "instr" with
  | none =>
    rw [hget] at hinstr
    cases hnone : e.instr with
    | none => rfl
    | some t =>
      rw [hnone] at hinstr
      exact nomatch hinstr
  | some value =>
    rw [hget] at hinstr
    obtain rfl : value = Json.ofOption e.instr := hinstr
    match e.instr with
    | none | some [] | some (_ :: _) => rfl

/-- **The value of an event** takes a line just when the value of its object does: no value but the
empty string has an empty text. -/
theorem valueLine_eq_valueLineAt (h : ObservedOf (members.get? "value") e.value) :
    e.valueLine = valueLineAt members := by
  unfold Event.valueLine valueLineAt
  generalize members.get? "value" = found at h
  generalize e.value = observed at h
  cases h with
  | absent | null => rfl
  | string t => cases t <;> rfl
  | @other value not_null not_string =>
    obtain ⟨c, rest, htext⟩ := List.exists_cons_of_ne_nil value.display_ne_nil
    rw [htext]
    cases value with
    | null => exact absurd rfl not_null
    | string t => exact absurd ⟨t, rfl⟩ not_string
    | bool | int | float | array | object => exact congrArg (("\\l" : Text) ++ ·) htext.symm

/-- **An event is drawn as its object asks for.** -/
theorem EventOf.drawnAs (h : EventOf (.object members) e) : DrawnAs members e := by
  obtain ⟨_, ⟨⟩, hinstr, hopcode, -, hthread, hname, hvalue⟩ := h
  constructor
  · rw [threadAt, hthread]
  · rw [nodeLine, Statement.toText_ofEvent, stringAt_eq hname, label_eq_labelAt hinstr hopcode,
      valueLine_eq_valueLineAt hvalue]

/-- The events of an execution come from a list of objects, one each. -/
theorem exists_objects {values : List Json} {events : List Event}
    (h : List.Forall₂ EventOf values events) :
    ∃ objects : List Json.Members, values = objects.map Json.object ∧
      List.Forall₂ DrawnAs objects events := by
  induction h with
  | nil => exact ⟨[], rfl, .nil⟩
  | cons hevent _ ih =>
    obtain ⟨objects, rfl, hobjects⟩ := ih
    obtain ⟨members, rfl, hmembers⟩ := hevent
    exact ⟨members :: objects, rfl, .cons (EventOf.drawnAs ⟨members, rfl, hmembers⟩) hobjects⟩

section Lists

variable {objects : List Json.Members} {events : List Event}

theorem map_threadAt_eq (h : List.Forall₂ DrawnAs objects events) :
    events.map Event.thread = objects.map threadAt := by
  induction h with
  | nil => rfl
  | cons hevent _ ih => rw [List.map_cons, List.map_cons, ih, hevent.thread]

/-- The nodes of a thread are those that the objects of the thread ask for. -/
theorem map_toText_ofEvent_filter (h : List.Forall₂ DrawnAs objects events) (t : Int) :
    ((events.filter (·.thread = t)).map Statement.ofEvent).map Statement.toText =
      (objects.filter (threadAt · = t)).map nodeLine := by
  induction h with
  | nil => rfl
  | @cons members e _ _ hevent _ ih =>
    by_cases ht : e.thread = t
    · rw [List.filter_cons_of_pos (by simpa using ht),
        List.filter_cons_of_pos (by simpa [hevent.thread] using ht)]
      simp only [List.map_cons, ih, hevent.line]
    · rw [List.filter_cons_of_neg (by simpa using ht),
        List.filter_cons_of_neg (by simpa [hevent.thread] using ht), ih]

end Lists

end Payload

/-! ## The nodes of a drawing -/

namespace Execution

theorem filter_isNode_threadBlock (x : Execution) (t : Int) :
    (x.threadBlock t).filter isNode = (x.eventsOf t).map Statement.ofEvent := by
  have hanchor : (anchor (x.eventsOf t)).filter isNode = [] := by
    refine List.filter_eq_nil_iff.mpr fun s hs => ?_
    obtain ⟨e, -, rfl⟩ := List.mem_map.mp hs
    exact Bool.false_ne_true
  unfold threadBlock cluster
  rw [List.filter_append, List.filter_append, List.filter_append, hanchor,
    List.filter_eq_self.mpr isNode_of_mem_map]
  simp [isNode]

/-- **The nodes of a drawing** are those of the events, thread by thread. -/
theorem filter_isNode_drawing (x : Execution) (draw : List Text) :
    (x.drawing draw).filter isNode =
      x.threads.flatMap fun t => (x.eventsOf t).map Statement.ofEvent := by
  have harrows : (x.drawnArrows draw).filter isNode = [] := by
    rw [drawnArrows_eq_map]
    refine List.filter_eq_nil_iff.mpr fun s hs => ?_
    obtain ⟨a, -, rfl⟩ := List.mem_map.mp hs
    exact Bool.false_ne_true
  unfold drawing
  rw [List.filter_append, List.filter_append, List.filter_append, harrows, List.filter_flatMap]
  simp [filter_isNode_threadBlock, isNode]

end Execution

namespace Payload

/-- The node lines that the event objects of an execution ask for: thread by thread in the order of
their first events, and in each thread in the order of the objects. -/
def nodeLines (objects : List Json.Members) : List Text :=
  (objects.map threadAt).eraseDups.flatMap fun t => (objects.filter (threadAt · = t)).map nodeLine

/-- **No observed value is lost between a payload and its drawing.** The node of an event that was
read is the one that its object asks for, and no value but the empty string has an empty text. In the
drawing of an execution that was read, the nodes are those that its event objects ask for. -/
theorem observed_values_are_drawn :
    (∀ value e, event value = .ok e →
      ∃ members, value = .object members ∧ (Statement.ofEvent e).toText = nodeLine members) ∧
    (∀ value : Json, value.toText = [] ↔ value = .string []) ∧
    ∀ value x, execution value = .ok x →
      ∃ (members : Json.Members) (objects : List Json.Members), value = .object members ∧
        members.get? "events" = some (.array (objects.map Json.object)) ∧
        ∀ draw, x.render draw = Text.unlines ((x.drawing draw).map Statement.toText) ∧
          ((x.drawing draw).filter Execution.isNode).map Statement.toText = nodeLines objects := by
  refine ⟨fun value e h => ?_, Json.toText_eq_nil_iff, fun value x h => ?_⟩
  · obtain ⟨members, rfl, hmembers⟩ := event_eq_ok_iff.mp h
    exact ⟨members, rfl, (EventOf.drawnAs ⟨members, rfl, hmembers⟩).line.symm⟩
  · obtain ⟨members, rfl, ⟨_, hget, values, rfl, hevents⟩, -⟩ := execution_eq_ok_iff.mp h
    obtain ⟨objects, rfl, hobjects⟩ := exists_objects hevents
    refine ⟨members, objects, rfl, hget, fun draw => ⟨x.render_eq_unlines draw, ?_⟩⟩
    rw [Execution.filter_isNode_drawing, List.map_flatMap, nodeLines, ← map_threadAt_eq hobjects]
    exact List.flatMap_congr fun t _ => map_toText_ofEvent_filter hobjects t

/-- An event that observed the value false, with an instruction that says nothing. -/
def falseObserved : Json.Members :=
  [("instr", .string ""), ("opcode", .string "0x1"), ("po", .int 0), ("thread_id", .int 0),
    ("name", .string "a"), ("value", .bool false)]

/-- **False is drawn**, below the opcode, wherever the event is read. -/
theorem falseObserved_is_drawn :
    (∃ e, event (.object falseObserved) = .ok e ∧
      (Statement.ofEvent e).toText = "    a [shape=box,label=\"0x1\\lFalse\"];") ∧
    ∃ x, execution (.object [("events", .array [.object falseObserved])]) = .ok x ∧
      ((x.drawing []).filter Execution.isNode).map Statement.toText =
        ["    a [shape=box,label=\"0x1\\lFalse\"];"] := by
  have hline : nodeLine falseObserved = "    a [shape=box,label=\"0x1\\lFalse\"];" := by
    rw [nodeLine, valueLineAt]
    decide
  constructor
  · refine ⟨_, rfl, ?_⟩
    obtain ⟨_, ⟨⟩, hnode⟩ := observed_values_are_drawn.1 (.object falseObserved) _ rfl
    exact hnode.trans hline
  · refine ⟨_, rfl, ?_⟩
    obtain ⟨_, objects, ⟨⟩, hevents, hdrawn⟩ := observed_values_are_drawn.2.2
      (.object [("events", .array [.object falseObserved])]) _ rfl
    obtain rfl : objects = [falseObserved] :=
      (List.map_inj_right fun _ _ => Json.object.inj).mp
        (Json.array.inj (Option.some.inj hevents)).symm
    exact (hdrawn []).2.trans (congrArg (fun line => [line]) hline)

end Payload

end LitmusGraph
