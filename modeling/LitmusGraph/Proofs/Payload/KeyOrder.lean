import LitmusGraph.Proofs.Payload.Location

/-!
# Key order and unknown keys

The reader of a payload looks up keys. How the members of an object are ordered, and what stands under
keys that are not looked up, therefore makes no difference, neither to the executions nor to the
problem that is reported.

`AlikePayload` relates payloads that differ in nothing else. It goes along the grammar: a table of
`Fields` for each kind of object gives the keys that are looked up there and says how the values under
them may differ. Most of these values are the same; those that list objects may differ inside the
objects.

Results:
* `AlikeMembers.rel_get?`: what is looked up in members that are alike.
* `event_eq_of_alike`, `set_eq_of_alike`, `relation_eq_of_alike`, `execution_eq_of_alike`: each kind of
  object is read alike.
* `executions_eq_of_alike`: payloads that are alike give the same executions, or the same problem.
-/

namespace LitmusGraph

namespace Payload

/-! ## Payloads that are alike -/

/-- The keys that are looked up in an object, and how the values under each of them may differ. -/
abbrev Fields := Table (Json → Json → Prop)

/-- The members under keys that are looked up. -/
def known (fields : Fields) (members : Json.Members) : Json.Members :=
  members.filter fun m => m.1 ∈ fields.names

/-- Members with each name once that are the same but for their order, for those that are not looked
up, and for what their fields allow inside the others. The `entries` are those of one side, put in the
order of the other. -/
structure AlikeMembers (fields : Fields) (ms ns : Json.Members) : Prop where
  nodup_left : ms.names.Nodup
  nodup_right : ns.names.Nodup
  reordered : ∃ entries : Json.Members,
    List.Forall₂ (fun m n => m.1 = n.1 ∧ ∃ alike, fields.get? m.1 = some alike ∧ alike m.2 n.2)
      (known fields ms) entries ∧ entries.Perm (known fields ns)

/-- The same value, or objects with members that are alike. -/
inductive AlikeObject (fields : Fields) : Json → Json → Prop where
  /-- The same value. -/
  | same (value : Json) : AlikeObject fields value value
  /-- Objects with members that are alike. -/
  | members {ms ns : Json.Members} (alike : AlikeMembers fields ms ns) :
    AlikeObject fields (.object ms) (.object ns)

/-- The same value, or lists with items that are alike one by one. -/
inductive AlikeList (alike : Json → Json → Prop) : Json → Json → Prop where
  /-- The same value. -/
  | same (value : Json) : AlikeList alike value value
  /-- Lists with items that are alike. -/
  | items {vs ws : List Json} (each : List.Forall₂ alike vs ws) :
    AlikeList alike (.array vs) (.array ws)

/-- An event is read member by member. -/
def eventFields : Fields :=
  [("instr", Eq), ("opcode", Eq), ("po", Eq), ("thread_id", Eq), ("name", Eq), ("value", Eq)]

/-- A set is read member by member. -/
def setFields : Fields := [("name", Eq), ("elems", Eq)]

/-- A relation is read member by member. -/
def relationFields : Fields := [("name", Eq), ("edges", Eq)]

/-- An execution lists objects, and names to show. -/
def executionFields : Fields :=
  [("events", AlikeList (AlikeObject eventFields)), ("sets", AlikeList (AlikeObject setFields)),
    ("relations", AlikeList (AlikeObject relationFields)), ("show", Eq)]

/-- An object with `graphs` holds executions there. -/
def payloadFields : Fields := [("graphs", AlikeList (AlikeObject executionFields))]

/-- Payloads that differ inside their objects only. Where something stands under `graphs`, nothing else
is looked up; an object that has nothing there is an execution. -/
inductive AlikePayload : Json → Json → Prop where
  /-- Lists of executions. -/
  | list {v w : Json} (alike : AlikeList (AlikeObject executionFields) v w) : AlikePayload v w
  /-- Lists of executions inside objects. -/
  | graphs {ms ns : Json.Members} {value : Json} (found : ms.get? "graphs" = some value)
    (alike : AlikeMembers payloadFields ms ns) : AlikePayload (.object ms) (.object ns)
  /-- Single executions. -/
  | single {ms ns : Json.Members} (absent : ms.get? "graphs" = none)
    (absent' : ns.get? "graphs" = none) (alike : AlikeMembers executionFields ms ns) :
    AlikePayload (.object ms) (.object ns)

/-! ## Looking up -/

section LookUp

variable {fields : Fields} {key : Text} {alike : Json → Json → Prop} {ms ns : Json.Members}

theorem rel_get?_of_forall₂ (hkey : fields.get? key = some alike)
    (h : List.Forall₂ (fun m n => m.1 = n.1 ∧ ∃ alike, fields.get? m.1 = some alike ∧ alike m.2 n.2)
      ms ns) : Option.Rel alike (ms.get? key) (ns.get? key) := by
  induction h with
  | nil => exact .none
  | @cons m n _ _ hentry _ ih =>
    obtain ⟨hname, alike', hfield, halike⟩ := hentry
    rw [Table.get?_cons, Table.get?_cons, ← hname]
    split
    · next hm =>
      rw [← hm, hkey] at hfield
      obtain rfl := Option.some.inj hfield
      exact .some halike
    · exact ih

theorem get?_known (hkey : fields.get? key = some alike) (members : Json.Members) :
    (known fields members).get? key = members.get? key := by
  have hmem : key ∈ fields.names := by
    by_contra hnew
    rw [(Table.get?_eq_none_iff fields key).mpr hnew] at hkey
    exact nomatch hkey
  exact Table.get?_filter_of_pos (p := fun name => name ∈ fields.names) (decide_eq_true hmem) members

/-- **Lookups are alike** in members that are alike: either none of them has the key, or both have it,
with values that are alike. -/
theorem AlikeMembers.rel_get? (h : AlikeMembers fields ms ns) (key : Text)
    (hkey : fields.get? key = some alike) : Option.Rel alike (ms.get? key) (ns.get? key) := by
  obtain ⟨entries, heach, hperm⟩ := h.reordered
  have hnodup : (known fields ns).names.Nodup := h.nodup_right.sublist (List.filter_sublist.map Prod.fst)
  have hentries : entries.names.Nodup := (hperm.map Prod.fst).nodup_iff.mpr hnodup
  rw [← get?_known hkey ms, ← get?_known hkey ns, ← Table.get?_eq_of_perm hperm hentries]
  exact rel_get?_of_forall₂ hkey heach

theorem AlikeMembers.get?_eq (h : AlikeMembers fields ms ns) (hkey : fields.get? key = some Eq) :
    ms.get? key = ns.get? key := by
  have hrel := h.rel_get? key hkey
  generalize ms.get? key = found, ns.get? key = found' at hrel
  cases hrel with
  | none => rfl
  | some heq => rw [heq]

end LookUp

/-! ## Reading -/

section Reading

variable {α : Type} {fields : Fields} {alike : Json → Json → Prop} {inside : Nat → Problem → Problem}
  {read : Json → Except Problem α} {ms ns : Json.Members} {key : Text} {v w : Json}

theorem AlikeObject.read_eq (h : AlikeObject fields v w)
    (hread : ∀ ms ns, AlikeMembers fields ms ns → read (.object ms) = read (.object ns)) :
    read v = read w := by
  cases h with
  | same => rfl
  | members hmembers => exact hread _ _ hmembers

theorem readEach_eq_of_forall₂ {vs ws : List Json}
    (h : List.Forall₂ (fun v w => read v = read w) vs ws) :
    readEach inside read vs = readEach inside read ws := by
  unfold readEach
  generalize 0 = start
  induction h generalizing start with
  | nil => rfl
  | cons hitem _ ih => simp only [List.zipIdx_cons, List.mapM_cons, hitem, ih]

theorem AlikeList.readList_eq (h : AlikeList alike v w) (hread : ∀ v w, alike v w → read v = read w)
    (field : Text) : readList field inside read v = readList field inside read w := by
  cases h with
  | same => rfl
  | items heach => exact readEach_eq_of_forall₂ (heach.imp hread)

theorem require_bind_eq_of_rel {owner : Owner} {f : Json → Except Problem α}
    (h : Option.Rel alike (ms.get? key) (ns.get? key)) (hf : ∀ v w, alike v w → f v = f w) :
    require owner key ms >>= f = require owner key ns >>= f := by
  unfold require
  generalize ms.get? key = found, ns.get? key = found' at h
  cases h with
  | none => rfl
  | some halike => exact hf _ _ halike

theorem readOptional_eq_of_rel
    (h : Option.Rel (AlikeList alike) (ms.get? key) (ns.get? key))
    (hread : ∀ v w, alike v w → read v = read w) :
    readOptional key read ms = readOptional key read ns := by
  unfold readOptional
  generalize ms.get? key = found, ns.get? key = found' at h
  cases h with
  | none => rfl
  | some halike => exact halike.readList_eq hread key

end Reading

theorem event_eq_of_alike {v w : Json} (h : AlikeObject eventFields v w) : event v = event w := by
  refine h.read_eq fun ms ns hmembers => ?_
  have hinstr : ms.get? "instr" = ns.get? "instr" := hmembers.get?_eq rfl
  have hopcode : ms.get? "opcode" = ns.get? "opcode" := hmembers.get?_eq rfl
  have hpo : ms.get? "po" = ns.get? "po" := hmembers.get?_eq rfl
  have hthread : ms.get? "thread_id" = ns.get? "thread_id" := hmembers.get?_eq rfl
  have hname : ms.get? "name" = ns.get? "name" := hmembers.get?_eq rfl
  have hvalue : ms.get? "value" = ns.get? "value" := hmembers.get?_eq rfl
  simp only [event, instr?, observed?, require, hinstr, hopcode, hpo, hthread, hname, hvalue]

theorem set_eq_of_alike {v w : Json} (h : AlikeObject setFields v w) : set v = set w := by
  refine h.read_eq fun ms ns hmembers => ?_
  have hname : ms.get? "name" = ns.get? "name" := hmembers.get?_eq rfl
  have helems : ms.get? "elems" = ns.get? "elems" := hmembers.get?_eq rfl
  simp only [set, require, hname, helems]

theorem relation_eq_of_alike {v w : Json} (h : AlikeObject relationFields v w) :
    relation v = relation w := by
  refine h.read_eq fun ms ns hmembers => ?_
  have hname : ms.get? "name" = ns.get? "name" := hmembers.get?_eq rfl
  have hedges : ms.get? "edges" = ns.get? "edges" := hmembers.get?_eq rfl
  simp only [relation, require, hname, hedges]

theorem execution_eq_of_alike {v w : Json} (h : AlikeObject executionFields v w) :
    execution v = execution w := by
  refine h.read_eq fun ms ns hmembers => ?_
  have hshown : readOptional "show" (string "show") ms = readOptional "show" (string "show") ns := by
    have hfound : ms.get? "show" = ns.get? "show" := hmembers.get?_eq rfl
    simp only [readOptional, hfound]
  rw [execution_object, execution_object,
    require_bind_eq_of_rel (hmembers.rel_get? "events" rfl)
      fun v w hlist => hlist.readList_eq (fun _ _ => event_eq_of_alike) "events",
    readOptional_eq_of_rel (hmembers.rel_get? "sets" rfl) fun _ _ => set_eq_of_alike,
    readOptional_eq_of_rel (hmembers.rel_get? "relations" rfl) fun _ _ => relation_eq_of_alike,
    hshown]

theorem listing_object (members : Json.Members) :
    listing (.object members) = (members.get? "graphs").getD (.array [.object members]) := rfl

/-- Payloads that are alike list executions that are alike. -/
theorem AlikePayload.listing {v w : Json} (h : AlikePayload v w) :
    AlikeList (AlikeObject executionFields) (listing v) (listing w) := by
  cases h with
  | list hlist =>
    cases hlist with
    | same => exact .same _
    | items heach => exact .items heach
  | @graphs ms ns value hfound hmembers =>
    have hrel := hmembers.rel_get? "graphs" rfl
    rw [hfound] at hrel
    rw [listing_object, listing_object, hfound]
    generalize ns.get? "graphs" = found at hrel
    cases hrel with
    | some halike => exact halike
  | @single ms ns habsent habsent' hmembers =>
    rw [listing_object, listing_object, habsent, habsent']
    exact .items (.cons (.members hmembers) .nil)

/-- **Key order and unknown keys do not matter.** Payloads that are alike give the same executions, or
the same problem and so the same message. -/
theorem executions_eq_of_alike {v w : Json} (h : AlikePayload v w) : executions v = executions w := by
  have hlisting := h.listing
  unfold executions
  generalize listing v = listed, listing w = listed' at hlisting
  cases hlisting with
  | same => rfl
  | items heach => exact readEach_eq_of_forall₂ (heach.imp fun _ _ => execution_eq_of_alike)

/-- The members of an event, with a number for an opcode. -/
def faulty : Json.Members := [("opcode", .int 5), ("name", .string "a")]

/-- The same members in another order, with an unknown one between them. -/
def faultyShuffled : Json.Members :=
  [("name", .string "a"), ("colour", .null), ("opcode", .int 5)]

/-- A payload with the faulty event, and sets that are no list. -/
def twoFaults : Json.Members := [("events", .array [.object faulty]), ("sets", .null)]

/-- The same payload with all of its objects shuffled. -/
def twoFaultsShuffled : Json.Members :=
  [("sets", .null), ("time", .int 3), ("events", .array [.object faultyShuffled])]

/-- The sets come first in one payload and last in the other; in both the opcode is reported. -/
theorem twoFaults_eq_twoFaultsShuffled :
    executions (.object twoFaults) = executions (.object twoFaultsShuffled) ∧
      executions (.object twoFaultsShuffled) =
        .error (.inExecution 0 (.inEvent 0 (.notString "opcode" (.int 5)))) := by
  have hevent : AlikeMembers eventFields faulty faultyShuffled :=
    { nodup_left := by decide
      nodup_right := by decide
      reordered := by
        refine ⟨faulty, .cons ⟨rfl, _, rfl, rfl⟩ (.cons ⟨rfl, _, rfl, rfl⟩ .nil), ?_⟩
        exact .swap _ _ _ }
  have hpayload : AlikeMembers executionFields twoFaults twoFaultsShuffled :=
    { nodup_left := by decide
      nodup_right := by decide
      reordered := by
        refine ⟨[("events", .array [.object faultyShuffled]), ("sets", .null)], ?_, .swap _ _ _⟩
        have hevents : AlikeList (AlikeObject eventFields) (.array [.object faulty])
            (.array [.object faultyShuffled]) := .items (.cons (.members hevent) .nil)
        exact .cons ⟨rfl, _, rfl, hevents⟩ (.cons ⟨rfl, _, rfl, .same _⟩ .nil) }
  exact ⟨executions_eq_of_alike (.single rfl rfl hpayload), rfl⟩

end Payload

end LitmusGraph
