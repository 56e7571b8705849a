import LitmusGraph.Proofs.CommandLine.Plan
import LitmusGraph.Proofs.Payload.Language

/-!
# What a failed run leaves behind

A run that fails should leave the files as they were and the standard output empty. Everything that
can be refused for want of an execution is refused before anything is written, and a file that cannot
be opened is left alone. But texts are encoded piece by piece, behind what has been written already,
and a text that cannot be encoded then leaves a trace:

* A file is emptied before the drawing is encoded. A drawing that cannot be encoded leaves it empty,
  whatever it held, while on the way to the standard output it leaves nothing.
* A list is printed line by line. A line that cannot be encoded leaves those in front of it.

Results:
* `leaves_of_leavesTrace`: both leave a trace.
* `keeps_of_not_leavesTrace`: nothing else does.
* `fails_without_trace_iff`: when a call leaves nothing behind if it fails.
* `fails_with_emptied_output`: a call that leaves an empty file.
-/

namespace LitmusGraph

namespace CommandLine

/-- A run with these options fails behind what it has written. -/
inductive LeavesTrace (input : Path) (options : Options) (files : FileTree) : Prop where
  /-- The file for the drawing is emptied, and the drawing cannot be encoded. -/
  | emptied {x : Execution} {k : Nat} {path : Path} {emptied : FileTree}
    (draws : Draws input options files x k) (output : options.output = .file path)
    (opened : files.write path.toText [] = .ok emptied) (filled : files.read path.toText ≠ .ok [])
    (alien : ¬ Utf8.Encodable (x.render (options.drawList x)))
  /-- The first line of the list is printed, and a later one cannot be encoded. -/
  | cut {xs : List Execution} {k : Nat} {first : Text} {rest : List Text}
    (lists : Lists input options files xs k) (lines : listLines xs k = first :: rest)
    (printed : Utf8.Encodable first) (alien : ∃ line ∈ rest, ¬ Utf8.Encodable line)

/-! ## Runs that leave a trace -/

section Runs

variable {input : Path} {options : Options} {files : FileTree} {xs : List Execution}
  {x : Execution} {k : Nat}

/-- **A run that fails behind what it has written leaves a trace.** -/
theorem leaves_of_leavesTrace (engine : Engine) (h : LeavesTrace input options files) :
    (outcomeOfRun engine input options files).exitCode = 2 ∧
      ¬ ((outcomeOfRun engine input options files).files = files ∧
        (outcomeOfRun engine input options files).stdout = []) := by
  cases h with
  | emptied draws output opened filled alien =>
    obtain ⟨hexit, -, hfiles⟩ := outcome_of_alien_file engine draws output opened alien
    refine ⟨hexit, fun ⟨hsame, _⟩ => filled ?_⟩
    exact (FileTree.write_eq_self_iff opened).mp (hfiles.symm.trans hsame)
  | @cut xs k first rest lists lines printed alien =>
    obtain ⟨late, hlate, halien⟩ := alien
    obtain ⟨front, alien, behind, rfl, hfront, halien⟩ :=
      exists_first_alien fun h => halien (h late hlate)
    have hprinted := List.forall_mem_cons.mpr ⟨printed, hfront⟩
    obtain ⟨hexit, hstdout, -⟩ := outcome_of_cut engine lists lines hprinted halien
    refine ⟨hexit, fun ⟨_, hempty⟩ => ?_⟩
    rw [hstdout, Text.unlines_cons] at hempty
    exact absurd hempty (by simp)

/-! ## Runs that leave none -/

/-- Without an image, a run ends with its delivery. -/
theorem exitCode_of_delivered (engine : Engine) (hformat : options.format = none)
    (h : Draws input options files x k)
    (hdeliver : ∀ log, ∃ after,
      (deliver (x.render (options.drawList x)) options.output).execute { files, log } =
        (.ok (), after)) :
    (outcomeOfRun engine input options files).exitCode = 0 := by
  obtain ⟨log, houtcome⟩ := outcome_of_perform engine input options files
  obtain ⟨after, hafter⟩ := hdeliver log
  have himage : (makeImage engine (x.render (options.drawList x)) input options k).execute after =
      (.ok (), after) := by
    unfold makeImage
    rw [hformat]
    rfl
  rw [plan_eq_draw_iff.mpr h] at houtcome
  exact (houtcome _ _ ((Run.execute_bind_of_ok hafter).trans himage)).1

/-- A run that lists leaves nothing unless a line is printed before it fails. -/
theorem keeps_of_lists (engine : Engine) (hquiet : ¬ LeavesTrace input options files)
    (h : Lists input options files xs k)
    (hfails : (outcomeOfRun engine input options files).exitCode ≠ 0) :
    (outcomeOfRun engine input options files).files = files ∧
      (outcomeOfRun engine input options files).stdout = [] := by
  by_cases hlines : ∀ line ∈ listLines xs k, Utf8.Encodable line
  · exact absurd (exitCode_of_lists engine h hlines) hfails
  obtain ⟨front, alien, rest, hsplit, hfront, halien⟩ := exists_first_alien hlines
  obtain ⟨-, hstdout, hfiles⟩ := outcome_of_cut engine h hsplit hfront halien
  cases front with
  | nil => exact ⟨hfiles, hstdout.trans Text.unlines_nil⟩
  | cons first front =>
    refine absurd (.cut h hsplit (hfront first List.mem_cons_self) ⟨alien, ?_, halien⟩) hquiet
    exact List.mem_append_right front List.mem_cons_self

/-- A run that draws leaves nothing unless a file is emptied before it fails. -/
theorem keeps_of_draws (engine : Engine) (hformat : options.format = none)
    (hquiet : ¬ LeavesTrace input options files) (h : Draws input options files x k)
    (hfails : (outcomeOfRun engine input options files).exitCode ≠ 0) :
    (outcomeOfRun engine input options files).files = files ∧
      (outcomeOfRun engine input options files).stdout = [] := by
  cases houtput : options.output with
  | nowhere => exact (outcome_of_nowhere engine h houtput).2.symm
  | standard =>
    by_cases hdot : Utf8.Encodable (x.render (options.drawList x))
    · refine absurd (exitCode_of_delivered engine hformat h fun log => ?_) hfails
      exact ⟨_, houtput ▸ execute_deliver_standard hdot.encode_eq _⟩
    · exact (outcome_of_alien_standard engine h houtput hdot).2.symm
  | file path =>
    cases hwrite : files.write path.toText [] with
    | error e => exact (outcome_of_unwritable engine h houtput hwrite).2.symm
    | ok emptied =>
      by_cases hdot : Utf8.Encodable (x.render (options.drawList x))
      · refine absurd (exitCode_of_delivered engine hformat h fun log => ?_) hfails
        obtain ⟨after, place, hdeliver, -⟩ :=
          execute_deliver_file (w := { files, log }) hdot.encode_eq hwrite
        exact ⟨after, houtput ▸ hdeliver⟩
      · obtain ⟨-, hstdout, hfiles⟩ := outcome_of_alien_file engine h houtput hwrite hdot
        -- A file that was empty is as it was.
        have hempty : files.read path.toText = .ok [] :=
          by_contra fun hfilled => hquiet (.emptied h houtput hwrite hfilled hdot)
        exact ⟨hfiles.trans ((FileTree.write_eq_self_iff hwrite).mpr hempty), hstdout⟩

/-- **A run that fails in any other way leaves nothing behind**, if it makes no image. -/
theorem keeps_of_not_leavesTrace (engine : Engine) (hformat : options.format = none)
    (hquiet : ¬ LeavesTrace input options files)
    (hfails : (outcomeOfRun engine input options files).exitCode ≠ 0) :
    (outcomeOfRun engine input options files).files = files ∧
      (outcomeOfRun engine input options files).stdout = [] := by
  cases hplan : plan input options files with
  | fail failure => exact (outcome_of_fail engine hplan).2.symm
  | stop => exact absurd (exitCode_of_stop engine hplan) hfails
  | list xs k => exact keeps_of_lists engine hquiet (plan_eq_list_iff.mp hplan) hfails
  | draw x k => exact keeps_of_draws engine hformat hquiet (plan_eq_draw_iff.mp hplan) hfails

end Runs

/-! ## Calls -/

/-- **When a call leaves nothing behind if it fails.** For all arguments that ask for no image, all
files and all that they hold: a call with an exit code other than 0 leaves every file and folder as
it was and nothing on the standard output, exactly if it is not one that empties the file for a
drawing that cannot be encoded, nor one that prints a line of a list before one that cannot be
encoded. -/
theorem fails_without_trace_iff (engine : Engine) (arguments : List Text) (files : FileTree)
    (hformat : ∀ input options, Options.parse arguments = .ok (.run input options) →
      options.format = none) :
    ((outcome engine arguments files).exitCode ≠ 0 →
        (outcome engine arguments files).files = files ∧
          (outcome engine arguments files).stdout = []) ↔
      ∀ input options, Options.parse arguments = .ok (.run input options) →
        ¬ LeavesTrace input options files := by
  unfold outcome
  cases hparse : Options.parse arguments with
  | error e =>
    constructor
    · exact fun _ _ _ h => nomatch h
    · exact fun _ _ => ⟨rfl, rfl⟩
  | ok command =>
    cases command with
    | help =>
      constructor
      · exact fun _ _ _ h => nomatch h
      · exact fun _ hfails => absurd rfl hfails
    | run input options =>
      constructor
      · intro hkeeps input' options' hsame htrace
        cases hsame
        obtain ⟨hexit, hleaves⟩ := leaves_of_leavesTrace engine htrace
        exact hleaves (hkeeps fun hzero => nomatch hexit.symm.trans hzero)
      · intro hquiet
        exact keeps_of_not_leavesTrace engine (hformat input options hparse)
          (hquiet input options rfl)

/-- A file with one execution, whose one event is named by a lone surrogate, as its bytes. -/
def alienPayload : Bytes :=
  (Utf8.encode ("[\x7b\"events\": [\x7b\"opcode\": \"0x1\", \"po\": 0, \"thread_id\": 0, " ++
    "\"name\": \"\\ud800\"\x7d]\x7d]")).toOption.getD []

/-- The execution in the file. -/
def alienExecution : Execution where
  events := [
    { instr := none, opcode := "0x1", po := 0, thread := 0, name := [.ofNat 0xD800], value := none }]
  sets := []
  relations := []
  shown := []

/-- A folder with the file, and one that holds something already. -/
def alienFolder : FileTree where
  root := .folder [("e.json", .file alienPayload), ("o.dot", .file [0x6F, 0x6C, 0x64])]
  working := []

/-- **A drawing that cannot be encoded costs the file it was to replace**: the call fails, and what
the file held is gone. -/
theorem fails_with_emptied_output :
    ∃ input options, Options.parse ["-i", "e.json", "-o", "o.dot"] = .ok (.run input options) ∧
      options.format = none ∧ LeavesTrace input options alienFolder ∧
      let after := outcome .missing ["-i", "e.json", "-o", "o.dot"] alienFolder
      after.exitCode ≠ 0 ∧ ¬ (after.files = alienFolder ∧ after.stdout = []) := by
  let options : Options := { output := .file (Path.ofText "o.dot") }
  have hparse : Options.parse ["-i", "e.json", "-o", "o.dot"] =
      .ok (.run (Path.ofText "e.json") options) :=
    Payload.toOption_eq_some_iff.mp (by decide +kernel)
  have hload : (Payload.load levels alienFolder (Path.ofText "e.json").toText).2 = .ok [alienExecution] :=
    Payload.toOption_eq_some_iff.mp (by decide +kernel)
  have hdraws : Draws (Path.ofText "e.json") options alienFolder alienExecution 0 :=
    ⟨rfl, rfl, rfl, [alienExecution], hload, rfl⟩
  obtain ⟨emptied, hwrite⟩ : ∃ emptied,
      alienFolder.write (Path.ofText "o.dot").toText [] = .ok emptied := ⟨_, rfl⟩
  have hread : alienFolder.read (Path.ofText "o.dot").toText = .ok [0x6F, 0x6C, 0x64] := rfl
  have halien : ¬ Utf8.Encodable (alienExecution.render defaultDraw) := by decide +kernel
  have htrace : LeavesTrace (Path.ofText "e.json") options alienFolder :=
    .emptied hdraws rfl hwrite (hread ▸ nofun) halien
  have hformat : ∀ input given,
      Options.parse ["-i", "e.json", "-o", "o.dot"] = .ok (.run input given) → given.format = none := by
    intro input given h
    cases hparse.symm.trans h
    rfl
  have hiff := fails_without_trace_iff .missing ["-i", "e.json", "-o", "o.dot"] alienFolder hformat
  refine ⟨_, _, hparse, rfl, htrace, ?_⟩
  by_contra hkeeps
  exact hiff.mp (fun hfails => by_contra fun h => hkeeps ⟨hfails, h⟩) _ _ hparse htrace

end CommandLine

end LitmusGraph
