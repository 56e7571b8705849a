import LitmusGraph.Proofs.CommandLine.Plan
import LitmusGraph.Proofs.Payload.Loading

/-!
# Exit codes

The exit code of a run names the first part of it that fails: 1 for the payload file, 2 for the
selection of an execution, 3 for the file of the drawing. A later fault never hides an earlier one,
since a run comes to its parts in this order, and the image, which is made last, fails in silence.

An option whose value is an end mark has no value at all, and that is found out where the value is
first used: in the selection, in the delivery, or in the naming of an image. Such a run ends with the
code 5 of what is unexpected.

Results:
* `Ordinary`: what is taken for granted about the system, the payload and the layout engine.
* `codeFor`: the exit code of a run, by what its payload file holds.
* `exitCode_of_unreadable`, `exitCode_of_readable`: a run has this exit code.
* `exitCode_names_first_fault`: the two together.
* `unusable_values_exitCode`: runs with a value that they can make no use of.
-/

namespace LitmusGraph

namespace CommandLine

/-- Nothing goes wrong that a run is not made for. -/
structure Ordinary (engine : Engine) (input : Path) (options : Options) (files : FileTree) : Prop where
  /-- The path of the payload file is not too long to be asked about, its bytes are text, and its JSON
  goes over no limit. -/
  foreseen : ¬ Payload.Unforeseen (levelsFor options) files input.toText
  /-- What is listed can be encoded. -/
  listed : ∀ xs k, Lists input options files xs k → ∀ line ∈ listLines xs k, Utf8.Encodable line
  /-- What is drawn can be encoded. -/
  drawn : ∀ x k, Draws input options files x k → Utf8.Encodable (x.render (options.drawList x))
  /-- The path for the drawing can be encoded and holds no NUL. -/
  askable : ∀ path, options.output = .file path → FileTree.Askable path.toText
  /-- The engine fails, if at all, in a way that is about the image alone. -/
  tame : engine.Tame

/-! ## The code for a payload file -/

/-- The exit code of a run that comes to its delivery. -/
def deliveryCode (options : Options) (files : FileTree) : Nat :=
  match options.output with
  | .file path =>
    match files.write path.toText [] with
    | .ok _ => 0
    | .error _ => 3
  | .nowhere => 5
  | .standard =>
    match options.format with
    | some (_ :: _) => if options.isNamed then 0 else 5
    | _ => 0

/-- The exit code of a run whose payload file holds the executions `xs`. -/
def codeFor (options : Options) (files : FileTree) (xs : List Execution) : Nat :=
  if options.validateOnly then 0
  else if xs = [] then 2
  else
    match options.execution with
    | none => 5
    | some i =>
      if i < 0 ∨ xs.length ≤ i then 2
      else if options.list then 0
      else deliveryCode options files

theorem deliveryCode_ne_one (options : Options) (files : FileTree) : deliveryCode options files ≠ 1 := by
  unfold deliveryCode
  split
  · split <;> decide
  · decide
  · split
    · split <;> decide
    · decide

/-- A payload file that can be read is not reported as one that cannot. -/
theorem codeFor_ne_one (options : Options) (files : FileTree) (xs : List Execution) :
    codeFor options files xs ≠ 1 := by
  unfold codeFor
  split
  · decide
  split
  · decide
  split
  · decide
  split
  · decide
  split
  · decide
  · exact deliveryCode_ne_one options files

/-! ## Runs have this code -/

section Runs

variable {engine : Engine} {input : Path} {options : Options} {files : FileTree}
  {xs : List Execution} {x : Execution} {k : Nat}

/-- What keeps a file from being written counts for the writing, if the file system can be asked about
its path. -/
theorem stage_of_unwritable {path : Text} {content : Bytes} {e : FileError}
    (haskable : FileTree.Askable path) (h : files.write path content = .error e) :
    (Failure.notWritable e).stage = .writing := by
  have hcode := FileTree.code?_of_write haskable h
  obtain ⟨fault, path⟩ := e
  cases fault with
  | notEncodable => exact nomatch hcode
  | embeddedNul => exact nomatch hcode
  | tooManyMissing => exact nomatch hcode
  | _ => rfl

/-- The exit code of a run that draws. -/
theorem exitCode_of_draws (hordinary : Ordinary engine input options files)
    (h : Draws input options files x k) :
    (outcomeOfRun engine input options files).exitCode = deliveryCode options files := by
  have hbytes := (hordinary.drawn x k h).encode_eq
  unfold deliveryCode
  cases houtput : options.output with
  | nowhere => exact (outcome_of_nowhere engine h houtput).1
  | file path =>
    cases hwrite : files.write path.toText [] with
    | ok emptied =>
      simp only [hwrite]
      exact (outcome_file h hordinary.tame hbytes houtput hwrite).1
    | error e =>
      have hstage := stage_of_unwritable (hordinary.askable path houtput) hwrite
      simp only [hwrite]
      rw [(outcome_of_unwritable engine h houtput hwrite).1, hstage]
      rfl
  | standard =>
    obtain ⟨-, hwell, hunnamed⟩ := outcome_standard h hordinary.tame hbytes houtput
    cases hformat : options.format with
    | none => exact hwell fun ⟨_, _, himage⟩ => nomatch hformat.symm.trans himage
    | some format =>
      cases format with
      | nil => exact hwell fun ⟨_, _, himage⟩ => nomatch hformat.symm.trans himage
      | cons c rest =>
        cases hnamed : options.isNamed with
        | true => exact hwell fun _ => hnamed
        | false => exact hunnamed ⟨c, rest, hformat⟩ hnamed

/-- **A run whose payload file can be read** has the exit code for the executions in it. -/
theorem exitCode_of_readable (hordinary : Ordinary engine input options files)
    (h : Payload.Readable (levelsFor options) files input.toText xs) :
    (outcomeOfRun engine input options files).exitCode = codeFor options files xs := by
  have hload := Payload.load_of_readable h
  have hplan : plan input options files = planFor options xs := plan_of_load hload
  unfold planFor at hplan
  unfold codeFor
  by_cases hvalidate : options.validateOnly = true
  · rw [if_pos hvalidate] at hplan ⊢
    exact exitCode_of_stop engine hplan
  rw [if_neg hvalidate] at hplan ⊢
  by_cases hxs : xs = []
  · rw [if_pos hxs] at hplan ⊢
    exact (outcome_of_fail engine hplan).1
  rw [if_neg hxs] at hplan ⊢
  cases hexecution : options.execution with
  | none =>
    rw [hexecution] at hplan
    exact (outcome_of_fail engine hplan).1
  | some i =>
    simp only [hexecution] at hplan ⊢
    by_cases hi : 0 ≤ i ∧ i < xs.length
    swap
    · rw [dif_neg hi] at hplan
      rw [if_pos (by omega)]
      exact (outcome_of_fail engine hplan).1
    rw [dif_pos hi] at hplan
    rw [if_neg (by omega)]
    by_cases hlist : options.list = true
    · rw [if_pos hlist] at hplan ⊢
      have hlists := plan_eq_list_iff.mp hplan
      exact exitCode_of_lists engine hlists (hordinary.listed _ _ hlists)
    · rw [if_neg hlist] at hplan ⊢
      exact exitCode_of_draws hordinary (plan_eq_draw_iff.mp hplan)

/-- **A run whose payload file cannot be read** has the exit code 1, whatever else is wrong. -/
theorem exitCode_of_unreadable (engine : Engine) (options : Options)
    (h : Payload.Unreadable (levelsFor options) files input.toText) :
    (outcomeOfRun engine input options files).exitCode = 1 := by
  obtain ⟨e, hload, hstage⟩ := Payload.load_of_unreadable h
  have hplan : plan input options files = .fail (.unreadable e) := by
    unfold plan
    rw [hload]
  rw [(outcome_of_fail engine hplan).1]
  show e.stage.exitCode = 1
  rw [hstage]
  rfl

/-- **The exit code names the first fault.** If nothing goes wrong that a run is not made for, the
exit code is 1 exactly if the payload file is missing, cannot be opened, is not JSON or holds no
payload, and otherwise it is the code for the executions in the file: nothing is looked at but the
options and whether the file for the drawing can be opened. -/
theorem exitCode_names_first_fault (hordinary : Ordinary engine input options files) :
    ((outcomeOfRun engine input options files).exitCode = 1 ↔
        Payload.Unreadable (levelsFor options) files input.toText) ∧
      (¬ Payload.Unreadable (levelsFor options) files input.toText →
        ∃ xs, Payload.Readable (levelsFor options) files input.toText xs ∧
          (outcomeOfRun engine input options files).exitCode = codeFor options files xs) := by
  obtain ⟨xs, hreadable⟩ | hunreadable | hunforeseen :=
    Payload.readable_or_unreadable_or_unforeseen (levelsFor options) files input.toText
  · have hcode := exitCode_of_readable hordinary hreadable
    refine ⟨⟨fun hone => ?_, exitCode_of_unreadable engine options⟩, fun _ => ⟨xs, hreadable, hcode⟩⟩
    exact absurd (hcode.symm.trans hone) (codeFor_ne_one options files xs)
  · exact ⟨⟨fun _ => hunreadable, exitCode_of_unreadable engine options⟩,
      fun hreadable => absurd hunreadable hreadable⟩
  · exact absurd hunforeseen hordinary.foreseen

end Runs

/-! ## Some runs -/

/-- A run on a folder with one payload file is ordinary if the file system can be asked about the path
for the drawing. -/
theorem ordinary_folderWith {name : Text} {options : Options}
    (hload : (Payload.load levels (folderWith name) (Path.ofText name).toText).2 = .ok [payloadExecution])
    (hvalidate : options.validateOnly = false) (hlist : options.list = false)
    (hdot : Utf8.Encodable (payloadExecution.render (options.drawList payloadExecution)))
    (haskable : ∀ path, options.output = .file path → FileTree.Askable path.toText) :
    Ordinary .missing (Path.ofText name) options (folderWith name) where
  foreseen hunforeseen := by
    rw [levelsFor_of_not_validateOnly hvalidate] at hunforeseen
    obtain ⟨e, he, -⟩ := Payload.load_of_unforeseen hunforeseen
    exact nomatch hload.symm.trans he
  listed _ _ h := nomatch hlist.symm.trans h.list
  drawn x k h := by
    obtain ⟨xs, hxs, hx⟩ := h.loads
    obtain rfl := Except.ok.inj (hload.symm.trans hxs)
    obtain rfl := List.mem_singleton.mp (List.mem_of_getElem? hx)
    exact hdot
  askable := haskable
  tame := trivial

/-- The drawing of the execution in the payload file can be encoded. -/
theorem encodable_payloadExecution : Utf8.Encodable (payloadExecution.render defaultDraw) := by
  decide +kernel

/-- A drawing for a folder that is missing: the exit code is that of the writing, though an image is
asked for too. -/
theorem exitCode_of_missing_folder :
    ∃ input options,
      Options.parse ["-i", "e.json", "-o", "no/o.dot", "--format", "svg"] =
        .ok (.run input options) ∧
      Ordinary .missing input options (folderWith "e.json") ∧
      (outcomeOfRun .missing input options (folderWith "e.json")).exitCode = 3 := by
  have hload : (Payload.load levels (folderWith "e.json") (Path.ofText "e.json").toText).2 =
      .ok [payloadExecution] := Payload.toOption_eq_some_iff.mp (by decide +kernel)
  have hordinary : Ordinary .missing (Path.ofText "e.json")
      { output := .file (Path.ofText "no/o.dot"), format := some "svg" } (folderWith "e.json") := by
    refine ordinary_folderWith hload rfl rfl encodable_payloadExecution fun path hpath => ?_
    obtain rfl := Destination.file.inj hpath
    decide
  obtain ⟨-, hreadable⟩ := exitCode_names_first_fault hordinary
  obtain ⟨xs, hxs, hcode⟩ := hreadable fun hunreadable => by
    obtain ⟨e, he, -⟩ := Payload.load_of_unreadable hunreadable
    exact nomatch hload.symm.trans he
  obtain rfl := Except.ok.inj (hload.symm.trans (Payload.load_of_readable hxs))
  have hparse : Options.parse ["-i", "e.json", "-o", "no/o.dot", "--format", "svg"] =
      .ok (.run (Path.ofText "e.json")
        { output := .file (Path.ofText "no/o.dot"), format := some "svg" }) :=
    Payload.toOption_eq_some_iff.mp (by decide +kernel)
  exact ⟨_, _, hparse, hordinary, hcode⟩

/-- A call on a folder with one payload file is ordinary, and ends with the code 5. -/
def EndsUnexpectedly (arguments : List Text) (name : Text) : Prop :=
  ∃ input options, Options.parse arguments = .ok (.run input options) ∧
    Ordinary .missing input options (folderWith name) ∧
    (outcomeOfRun .missing input options (folderWith name)).exitCode = 5

theorem endsUnexpectedly_of_load {arguments : List Text} {name : Text} (options : Options)
    (hparse : (Options.parse arguments).toOption = some (.run (Path.ofText name) options))
    (hload : (Payload.load levels (folderWith name) (Path.ofText name).toText).2 = .ok [payloadExecution])
    (hvalidate : options.validateOnly = false) (hlist : options.list = false)
    (hdraw : options.drawList payloadExecution = defaultDraw)
    (houtput : ∀ path, options.output ≠ .file path)
    (hcode : codeFor options (folderWith name) [payloadExecution] = 5) :
    EndsUnexpectedly arguments name := by
  have hordinary : Ordinary .missing (Path.ofText name) options (folderWith name) :=
    ordinary_folderWith hload hvalidate hlist (hdraw ▸ encodable_payloadExecution)
      fun path hpath => absurd hpath (houtput path)
  have hreadable : Payload.Readable (levelsFor options) (folderWith name) (Path.ofText name).toText
      [payloadExecution] := by
    rw [levelsFor_of_not_validateOnly hvalidate]
    exact (Payload.load_eq_ok_iff _ _ _ _).mp hload
  exact ⟨_, options, Payload.toOption_eq_some_iff.mp hparse, hordinary,
    (exitCode_of_readable hordinary hreadable).trans hcode⟩

/-- A path that is a lone surrogate, which stands for no byte. -/
def unnameable : Text := [.ofNat 0xD800]

/-- **Some values are of no use to a run.** An end mark in place of a value makes it fail with the code
5, be it the value of the index, of the file for the drawing, or of the payload file that an image is to
be named after. A path for the drawing that cannot be encoded cannot be opened either, and the code
is 2. -/
theorem unusable_values_exitCode :
    EndsUnexpectedly ["-i", "e.json", "-x=--"] "e.json" ∧
      EndsUnexpectedly ["-i", "e.json", "-o=--"] "e.json" ∧
      EndsUnexpectedly ["-i=--", "--format", "svg"] "[]" ∧
      ∃ input options, Options.parse ["-i", "e.json", "-o", unnameable] = .ok (.run input options) ∧
        Draws input options (folderWith "e.json") payloadExecution 0 ∧
        (∃ e, (folderWith "e.json").write unnameable [] = .error e) ∧
        (outcomeOfRun .missing input options (folderWith "e.json")).exitCode = 2 := by
  have hload : (Payload.load levels (folderWith "e.json") (Path.ofText "e.json").toText).2 =
      .ok [payloadExecution] := Payload.toOption_eq_some_iff.mp (by decide +kernel)
  have hload' : (Payload.load levels (folderWith "[]") (Path.ofText "[]").toText).2 =
      .ok [payloadExecution] := Payload.toOption_eq_some_iff.mp (by decide +kernel)
  refine ⟨endsUnexpectedly_of_load { execution := none } ?_ hload rfl rfl rfl nofun rfl,
    endsUnexpectedly_of_load { output := .nowhere } ?_ hload rfl rfl rfl nofun rfl,
    endsUnexpectedly_of_load { isNamed := false, format := some "svg" } ?_ hload' rfl rfl rfl nofun rfl,
    ?_⟩
  · decide +kernel
  · decide +kernel
  · decide +kernel
  have hparse : Options.parse ["-i", "e.json", "-o", unnameable] =
      .ok (.run (Path.ofText "e.json") { output := .file (Path.ofText unnameable) }) :=
    Payload.toOption_eq_some_iff.mp (by decide +kernel)
  have hdraws : Draws (Path.ofText "e.json") { output := .file (Path.ofText unnameable) }
      (folderWith "e.json") payloadExecution 0 := draws_payloadExecution hload rfl rfl rfl
  obtain ⟨e, hwrite, hstage⟩ : ∃ e, (folderWith "e.json").write (Path.ofText unnameable).toText [] =
      .error e ∧ (Failure.notWritable e).stage = .selection := ⟨_, rfl, rfl⟩
  refine ⟨_, _, hparse, hdraws, ⟨e, hwrite⟩, ?_⟩
  rw [(outcome_of_unwritable .missing hdraws rfl hwrite).1, hstage]
  rfl

end CommandLine

end LitmusGraph
