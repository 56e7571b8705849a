import LitmusGraph.Payload.File
import LitmusGraph.Proofs.Payload.Language
import LitmusGraph.Proofs.Text.Utf8

/-!
# What becomes of a payload file

Whatever is at a path, one of three things is the case, and what it is can be told from the tree, the
bytes and the JSON value alone:

* `Readable`: there is a file whose text is a payload, and it gives the executions spelled out there.
* `Unreadable`: there is no file, no JSON in it or no payload. That is a fault of the format, and it
  is reported as one.
* `Unforeseen`: the path is too long to be asked about, the bytes are no text, or the JSON goes over a
  limit. These faults are not reported as faults of the format.

What goes over the limit on nesting depends on the levels that are left when `read_executions` is called,
so all three are given these levels, and what is shown of them holds for any number of levels.

The condition is exact for the trees of this library, which have no permissions, links or devices. Where
a folder on the way may not be searched, asking whether there is something at the path fails, and that
escapes too. A path that cannot be encoded leads nowhere and is reported as missing.

Results:
* `readable_or_unreadable_or_unforeseen`: there is no fourth case.
* `load_of_readable`, `load_of_unreadable`, `load_of_unforeseen`: what loading comes to in each.
* `load_fails_otherwise_iff`: loading fails in another way than by a fault of the format exactly in
  the third case.
* `load_of_alien_bytes`: a file for which it does.
-/

namespace LitmusGraph

namespace Payload

/-- The path by which a file is asked for. -/
def location (path : Text) : Text := (Path.ofText path).toText

/-- The file at a path holds a text. -/
def Holds (tree : FileTree) (path text : Text) : Prop :=
  ∃ bytes, tree.read (location path) = .ok bytes ∧ Utf8.encode text = .ok bytes

/-- The file at a path holds a payload that spells out some executions. -/
def Readable (levels : Nat) (tree : FileTree) (path : Text) (xs : List Execution) : Prop :=
  ∃ text value, Holds tree path text ∧ Json.decode levels text.unifyLineEnds = .ok value ∧
    PayloadOf value xs

/-- There is no payload at a path. -/
inductive Unreadable (levels : Nat) (tree : FileTree) (path : Text) : Prop where
  /-- The path leads nowhere. -/
  | missing {fault : FileFault} (lost : tree.locate (location path) = .error fault)
    (askable : fault ≠ .nameTooLong)
  /-- The path leads somewhere, but not to a file. -/
  | notOpened {trail : Trail} {e : FileError} (found : tree.locate (location path) = .ok trail)
    (closed : tree.read (location path) = .error e)
  /-- The file is not JSON. -/
  | notJson {text : Text} {fault : Json.Fault} {place : Json.Place} (holds : Holds tree path text)
    (malformed : Json.decode levels text.unifyLineEnds = .error (.malformed fault place))
  /-- The file is JSON, but no payload. -/
  | notPayload {text : Text} {value : Json} (holds : Holds tree path text)
    (json : Json.decode levels text.unifyLineEnds = .ok value) (alien : ¬ IsPayload value)

/-- It cannot be told whether there is a payload at a path. In trees without permissions, links and
devices there are no other cases. -/
inductive Unforeseen (levels : Nat) (tree : FileTree) (path : Text) : Prop where
  /-- The path is too long to be asked about. -/
  | unaskable (long : tree.locate (location path) = .error .nameTooLong)
  /-- The bytes of the file are those of no text. -/
  | notText {bytes : Bytes} (read : tree.read (location path) = .ok bytes)
    (alien : ∀ text, Utf8.encode text ≠ .ok bytes)
  /-- The file holds a whole number with too many digits. -/
  | tooManyDigits {text : Text} {count : Nat} (holds : Holds tree path text)
    (long : Json.decode levels text.unifyLineEnds = .error (.tooManyDigits count))
  /-- The file holds values that lie too deep. -/
  | tooDeep {text : Text} {container : Json.Container} (holds : Holds tree path text)
    (deep : Json.decode levels text.unifyLineEnds = .error (.tooDeep container))

/-! ## There is no fourth case -/

section Cases

variable {levels : Nat} {tree : FileTree} {path text : Text} {bytes : Bytes} {xs : List Execution}

/-- **Whatever is at a path**, it is one of the three. -/
theorem readable_or_unreadable_or_unforeseen (levels : Nat) (tree : FileTree) (path : Text) :
    (∃ xs, Readable levels tree path xs) ∨ Unreadable levels tree path ∨ Unforeseen levels tree path := by
  cases hlocate : tree.locate (location path) with
  | error fault =>
    by_cases hlong : fault = .nameTooLong
    · exact .inr (.inr (.unaskable (hlong ▸ hlocate)))
    · exact .inr (.inl (.missing hlocate hlong))
  | ok trail =>
  cases hread : tree.read (location path) with
  | error e => exact .inr (.inl (.notOpened hlocate hread))
  | ok bytes =>
  by_cases htext : ∃ text, Utf8.encode text = .ok bytes
  swap
  · exact .inr (.inr (.notText hread (not_exists.mp htext)))
  obtain ⟨text, htext⟩ := htext
  have hholds : Holds tree path text := ⟨bytes, hread, htext⟩
  cases hjson : Json.decode levels text.unifyLineEnds with
  | error e =>
    cases e with
    | malformed fault place => exact .inr (.inl (.notJson hholds hjson))
    | tooManyDigits count => exact .inr (.inr (.tooManyDigits hholds hjson))
    | tooDeep container => exact .inr (.inr (.tooDeep hholds hjson))
  | ok value =>
    by_cases hpayload : IsPayload value
    · obtain ⟨xs, hxs⟩ := (exists_payloadOf_iff value).mpr hpayload
      exact .inl ⟨xs, text, value, hholds, hjson, hxs⟩
    · exact .inr (.inl (.notPayload hholds hjson hpayload))

/-! ## What loading comes to -/

/-- A path that leads somewhere is asked about with success. -/
theorem exists?_of_locate {trail : Trail} (h : tree.locate (location path) = .ok trail) :
    tree.exists? (location path) = .ok true := by
  unfold FileTree.exists?
  rw [h]

/-- What can be read is somewhere. -/
theorem exists_locate_of_read (h : tree.read (location path) = .ok bytes) :
    ∃ trail, tree.locate (location path) = .ok trail := by
  unfold FileTree.read at h
  cases hlocate : tree.locate (location path) with
  | ok trail => exact ⟨trail, rfl⟩
  | error fault =>
    rw [hlocate] at h
    exact nomatch h

/-- A file that can be read is loaded as its bytes are. -/
theorem load_of_read (h : tree.read (location path) = .ok bytes) :
    (load levels tree path).2 = ofBytes levels path bytes := by
  obtain ⟨trail, hlocate⟩ := exists_locate_of_read h
  have hexists := exists?_of_locate hlocate
  unfold location at h hexists
  unfold load
  simp only [hexists, h]
  cases ofBytes levels path bytes <;> rfl

/-- A file that holds a text is loaded as the JSON in it is. -/
theorem load_of_holds (h : Holds tree path text) :
    (load levels tree path).2 =
      (Json.decode levels text.unifyLineEnds).mapError (.notJson path) >>= fun value =>
        (executions value).mapError .notPayload := by
  obtain ⟨bytes, hread, htext⟩ := h
  rw [load_of_read hread]
  unfold ofBytes
  rw [Utf8.decode_eq_ok_iff.mpr htext]
  rfl

/-- **What is readable is loaded.** -/
theorem load_of_readable (h : Readable levels tree path xs) : (load levels tree path).2 = .ok xs := by
  obtain ⟨text, value, hholds, hjson, hpayload⟩ := h
  rw [load_of_holds hholds, hjson]
  show (executions value).mapError ReadError.notPayload = .ok xs
  rw [executions_eq_ok_iff.mpr hpayload]
  rfl

/-- **What is unreadable is reported** as a fault of the format. -/
theorem load_of_unreadable (h : Unreadable levels tree path) :
    ∃ e, (load levels tree path).2 = .error e ∧ e.stage = .reading := by
  cases h with
  | @missing fault lost askable =>
    have hexists : tree.exists? (location path) = .ok false := by
      unfold FileTree.exists?
      rw [lost]
      cases fault with
      | nameTooLong => exact absurd rfl askable
      | _ => rfl
    unfold location at hexists
    unfold load
    simp only [hexists]
    exact ⟨_, rfl, rfl⟩
  | notOpened found closed =>
    have hexists := exists?_of_locate found
    unfold location at closed hexists
    unfold load
    simp only [hexists, closed]
    exact ⟨_, rfl, rfl⟩
  | notJson holds malformed =>
    rw [load_of_holds holds, malformed]
    exact ⟨_, rfl, rfl⟩
  | @notPayload text value holds json alien =>
    obtain ⟨problem, hproblem⟩ := (exists_executions_eq_error_iff value).mpr alien
    rw [load_of_holds holds, json]
    show ∃ e, (executions value).mapError ReadError.notPayload = .error e ∧ _
    rw [hproblem]
    exact ⟨_, rfl, rfl⟩

/-- **What is unforeseen escapes**: it is not reported as a fault of the format. -/
theorem load_of_unforeseen (h : Unforeseen levels tree path) :
    ∃ e, (load levels tree path).2 = .error e ∧ e.stage ≠ .reading := by
  cases h with
  | unaskable long =>
    have hexists : tree.exists? (location path) =
        .error { fault := .nameTooLong, path := location path } := by
      unfold FileTree.exists?
      rw [long]
    unfold location at hexists
    unfold load
    simp only [hexists]
    exact ⟨_, rfl, nofun⟩
  | @notText bytes read alien =>
    rw [load_of_read read]
    unfold ofBytes
    cases hdecode : Utf8.decode bytes with
    | ok text => exact absurd (Utf8.decode_eq_ok_iff.mp hdecode) (alien text)
    | error e => exact ⟨_, rfl, nofun⟩
  | tooManyDigits holds long =>
    rw [load_of_holds holds, long]
    exact ⟨_, rfl, nofun⟩
  | tooDeep holds deep =>
    rw [load_of_holds holds, deep]
    exact ⟨_, rfl, nofun⟩

end Cases

/-! ## When the reader reports something else -/

variable (levels : Nat) (tree : FileTree) (path : Text)

/-- Executions are loaded exactly if they are readable. -/
theorem load_eq_ok_iff (xs : List Execution) :
    (load levels tree path).2 = .ok xs ↔ Readable levels tree path xs := by
  refine ⟨fun h => ?_, load_of_readable⟩
  obtain ⟨ys, hreadable⟩ | hunreadable | hunforeseen :=
    readable_or_unreadable_or_unforeseen levels tree path
  · rw [load_of_readable hreadable] at h
    exact Except.ok.inj h ▸ hreadable
  · obtain ⟨e, he, -⟩ := load_of_unreadable hunreadable
    exact nomatch he.symm.trans h
  · obtain ⟨e, he, -⟩ := load_of_unforeseen hunforeseen
    exact nomatch he.symm.trans h

/-- A fault of the format is reported exactly if there is one. -/
theorem load_fails_reading_iff :
    (∃ e, (load levels tree path).2 = .error e ∧ e.stage = .reading) ↔ Unreadable levels tree path := by
  refine ⟨fun ⟨e, he, hstage⟩ => ?_, load_of_unreadable⟩
  obtain ⟨xs, hreadable⟩ | hunreadable | hunforeseen :=
    readable_or_unreadable_or_unforeseen levels tree path
  · exact nomatch (load_of_readable hreadable).symm.trans he
  · exact hunreadable
  · obtain ⟨e', he', hstage'⟩ := load_of_unforeseen hunforeseen
    cases he'.symm.trans he
    exact absurd hstage hstage'

/-- **Loading fails in another way** than by a fault of the format exactly if the path is too long to
be asked about, the file is no text, or its JSON goes over a limit. In all other cases executions
are loaded, or the fault of the format is reported that there is. -/
theorem load_fails_otherwise_iff :
    ((∃ e, (load levels tree path).2 = .error e ∧ e.stage ≠ .reading) ↔ Unforeseen levels tree path) ∧
      (∀ xs, (load levels tree path).2 = .ok xs ↔ Readable levels tree path xs) ∧
      ((∃ e, (load levels tree path).2 = .error e ∧ e.stage = .reading) ↔ Unreadable levels tree path) := by
  refine ⟨⟨fun ⟨e, he, hstage⟩ => ?_, load_of_unforeseen⟩, load_eq_ok_iff levels tree path,
    load_fails_reading_iff levels tree path⟩
  obtain ⟨xs, hreadable⟩ | hunreadable | hunforeseen :=
    readable_or_unreadable_or_unforeseen levels tree path
  · exact nomatch (load_of_readable hreadable).symm.trans he
  · obtain ⟨e', he', hstage'⟩ := load_of_unreadable hunreadable
    cases he'.symm.trans he
    exact absurd hstage' hstage
  · exact hunforeseen

/-- A file with a single byte, which no text has. -/
def alienFile : FileTree where
  root := .folder [("e.json", .file [0xFF])]
  working := []

/-- **A file that is no text** is not reported as a fault of the format. -/
theorem load_of_alien_bytes :
    ∃ e, (load 992 alienFile "e.json").2 = .error e ∧ e.stage ≠ .reading := by
  have hread : alienFile.read (location "e.json") = .ok [0xFF] := rfl
  refine load_of_unforeseen (.notText hread fun text htext => ?_)
  have hdecode := Utf8.decode_eq_ok_iff.mpr htext
  have herror : Utf8.decode [0xFF] = .error ⟨0, 0, 0xFF, .invalidStart⟩ := by decide
  exact nomatch herror.symm.trans hdecode

end Payload

end LitmusGraph
