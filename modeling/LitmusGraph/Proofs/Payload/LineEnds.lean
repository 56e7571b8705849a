import LitmusGraph.Proofs.Json.LineEnds
import LitmusGraph.Proofs.Payload.Loading
import Mathlib

/-!
# The line ends of a payload file

A payload file is read with its line ends unified. A carriage return that is lost in this way was a
blank, and a line feed is one too, or it stood where neither of them may stand. So loading a file
agrees with decoding its text as it stands; only the place that a fault is reported at may be another
one.

Results:
* `load_agrees_with_decode`: what loading comes to, by what the text of the file holds.
* `mixedLines_loaded`: a file with line ends of all three kinds.
-/

namespace LitmusGraph

namespace Payload

section Loading

variable {levels : Nat} {tree : FileTree} {path text : Text}

/-- The JSON in a file, its line ends unified or not, is the payload that is loaded. -/
theorem load_of_decode {value : Json} (h : Holds tree path text)
    (hjson : Json.decode levels text = .ok value) :
    (load levels tree path).2 = (executions value).mapError .notPayload := by
  have hlines := Text.sameLines_unifyLineEnds text
  rw [load_of_holds h, (Json.decode_eq_ok_iff_of_sameLines hlines value).mp hjson]
  rfl

/-- What is loaded from a file is in its text as it stands. -/
theorem exists_decode_of_load {xs : List Execution} (h : Holds tree path text)
    (hload : (load levels tree path).2 = .ok xs) :
    ∃ value, Json.decode levels text = .ok value ∧ executions value = .ok xs := by
  rw [load_of_holds h] at hload
  cases hunified : Json.decode levels text.unifyLineEnds with
  | error e =>
    rw [hunified] at hload
    exact nomatch hload
  | ok value =>
    rw [hunified] at hload
    change (executions value).mapError ReadError.notPayload = .ok xs at hload
    have hlines := Text.sameLines_unifyLineEnds text
    refine ⟨value, (Json.decode_eq_ok_iff_of_sameLines hlines value).mpr hunified, ?_⟩
    cases hxs : executions value with
    | error problem =>
      rw [hxs] at hload
      exact nomatch hload
    | ok ys =>
      rw [hxs] at hload
      exact congrArg Except.ok (Except.ok.inj hload)

/-- **Loading a file agrees with decoding its text**, whatever its line ends. The executions are those
that the value in the text spells out. If it spells out none, the problem is reported in the same words.
If the text is malformed, that is reported as a fault of the format, of the same kind. -/
theorem load_agrees_with_decode (h : Holds tree path text) :
    (∀ xs, (load levels tree path).2 = .ok xs ↔
      ∃ value, Json.decode levels text = .ok value ∧ executions value = .ok xs) ∧
    (∀ value problem, Json.decode levels text = .ok value → executions value = .error problem →
      ∃ e, (load levels tree path).2 = .error e ∧ e.stage = .reading ∧ e.message = problem.message) ∧
    (∀ fault place, Json.decode levels text = .error (.malformed fault place) →
      ∃ e place', (load levels tree path).2 = .error e ∧ e.stage = .reading ∧
        e.message =
          "Invalid JSON in " ++ path ++ ": " ++ (Json.DecodeError.malformed fault place').message) := by
  refine ⟨fun xs => ⟨exists_decode_of_load h, ?_⟩, ?_, ?_⟩
  · rintro ⟨value, hjson, hxs⟩
    rw [load_of_decode h hjson, hxs]
    rfl
  · intro value problem hjson hproblem
    rw [load_of_decode h hjson, hproblem]
    exact ⟨.notPayload problem, rfl, rfl, rfl⟩
  · intro fault place hjson
    obtain ⟨place', hunified⟩ :=
      Json.exists_malformed_of_sameLines (Text.sameLines_unifyLineEnds text) hjson
    rw [load_of_holds h, hunified]
    exact ⟨.notJson path (.malformed fault place'), place', rfl, rfl, rfl⟩

end Loading

/-- A payload with line ends of all three kinds. It shows a relation whose name has a carriage return,
written as an escape. -/
def mixedLines : Text := "\x7b\"events\":\r\n[\r],\n\"show\": [\"r\\r\"]\x7d"

/-- The execution that is spelled out there. -/
def mixedLinesRead : Execution where
  events := []
  sets := []
  relations := []
  shown := ["r\r"]

/-- A file with the payload. -/
def mixedFile : FileTree where
  root := .folder [("e.json", .file ((Utf8.encode mixedLines).toOption.getD []))]
  working := []

/-- **The file is loaded** with a level for each of its brackets, and the carriage return in the name is
kept. -/
theorem mixedLines_loaded :
    Holds mixedFile "e.json" mixedLines ∧
      (load 2 mixedFile "e.json").2 = .ok [mixedLinesRead] := by
  have hholds : Holds mixedFile "e.json" mixedLines :=
    ⟨(Utf8.encode mixedLines).toOption.getD [], by cbv, by cbv⟩
  have hjson : Json.decode 2 mixedLines =
      .ok (.object [("events", .array []), ("show", .array [.string "r\r"])]) := by cbv
  exact ⟨hholds, ((load_agrees_with_decode hholds).1 _).mpr ⟨_, hjson, rfl⟩⟩

end Payload

end LitmusGraph
