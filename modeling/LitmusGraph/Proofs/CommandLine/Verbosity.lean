import LitmusGraph.Proofs.CommandLine.Delivery
import LitmusGraph.Proofs.CommandLine.Image
import LitmusGraph.Proofs.Log.InStep

/-!
# The flags for more output change what is told, and nothing else

The shared logger is open, at the threshold `info`, before the flags are known: the modules that tell
notices open it. A call sets its threshold by the flags and then tells all its notices to it. No part
of a run looks at the flags, so two calls that differ in them alone tell the same notices and leave
the same behind; what they write to the standard error are the notices that their loggers let
through.

Results:
* `inStep_callLogger`: the logger of a call is in step, at the threshold that the flags ask for.
* `stderr_eq_flatMap_write`: what a call writes to the standard error is what its logger writes.
* `stderr_eq_flatMap_messages`: what a call writes to the standard error are its messages.
* `flags_change_messages_only`: what the flags have to do with the outcome of a call.
-/

namespace LitmusGraph

namespace CommandLine

/-- The shared logger before the flags are known. -/
def openedLogger : SharedLogger := some (SharedLogger.get none SharedLogger.defaultName)

/-- The logger of a call, once it has set the threshold. -/
def callLogger (options : Options) : Logger :=
  (openedLogger.configure options.verbose options.debug).get SharedLogger.defaultName

/-- The notices of a call, that of its failure last. -/
def notices (engine : Engine) (input : Path) (options : Options) (files : FileTree) : Log :=
  (complete engine input options files).2.log

/-- The messages of a call are the notices that its logger writes something of. -/
def messages (engine : Engine) (input : Path) (options : Options) (files : FileTree) : Log :=
  (notices engine input options files).filter fun n => (callLogger options).write n ≠ []

/-- **The logger of a call is in step**, though it was opened at another threshold. -/
theorem inStep_callLogger (options : Options) :
    (callLogger options).InStep (.ofFlags options.verbose options.debug) :=
  SharedLogger.inStep_get_configure (s := openedLogger) (Logger.inStep_reopen _ .info) _ _ _

section Messages

variable (engine : Engine) (input : Path) (options : Options) (files : FileTree)

theorem messages_eq_visible :
    messages engine input options files =
      Log.visible (.ofFlags options.verbose options.debug) (notices engine input options files) := by
  refine List.filter_congr fun n _ => ?_
  rw [Bool.eq_iff_iff, decide_eq_true_iff]
  exact (inStep_callLogger options).write_ne_nil_iff n

/-- What a call writes to the standard error is what its logger writes, notice by notice. -/
theorem stderr_eq_flatMap_write :
    (outcomeOfRun engine input options files).stderr =
      Utf8.escapeSurrogates
        ((notices engine input options files).flatMap (callLogger options).write) := by
  rw [(inStep_callLogger options).flatMap_write]
  rfl

/-- **What a call writes to the standard error are its messages**, each once. -/
theorem stderr_eq_flatMap_messages :
    (outcomeOfRun engine input options files).stderr =
      (messages engine input options files).flatMap fun n => Utf8.escapeSurrogates n.line := by
  rw [messages_eq_visible]
  exact List.flatMap_assoc

end Messages

/-! ## Other flags -/

/-- The options with other flags for more output. -/
def withFlags (options : Options) (verbose debugging : Bool) : Options :=
  { options with verbose, debug := debugging }

/-- Two records of options differ in the flags for more output, if at all. -/
def SameButFlags (options options' : Options) : Prop :=
  withFlags options options'.verbose options'.debug = options'

/-- **No part of a run looks at the flags.** -/
theorem run_withFlags (engine : Engine) (input : Path) (options : Options)
    (verbose debugging : Bool) :
    run engine input (withFlags options verbose debugging) = run engine input options := rfl

theorem SameButFlags.complete_eq {options options' : Options} (h : SameButFlags options options')
    (engine : Engine) (input : Path) (files : FileTree) :
    complete engine input options files = complete engine input options' files := by
  unfold complete
  rw [← h, run_withFlags]

/-- Two outcomes are the same but for what is written to the standard error. -/
structure SameButMessages (a b : Outcome) : Prop where
  exitCode : a.exitCode = b.exitCode
  stdout : a.stdout = b.stdout
  calls : a.calls = b.calls
  files : a.files = b.files

/-- **The flags for more output change the messages only**: two calls whose options differ in those
flags alone have the same exit code, the same standard output, the same calls to the engine and the
same files. Each writes to the standard error what its logger writes of its notices, at the threshold
that its flags ask for, and those are its messages. The messages of the call with the higher threshold
are those of the other one that reach it. -/
theorem flags_change_messages_only (engine : Engine) (input : Path) (files : FileTree)
    {options options' : Options} (hsame : SameButFlags options options') :
    SameButMessages (outcomeOfRun engine input options files)
        (outcomeOfRun engine input options' files) ∧
      (∀ o ∈ [options, options'],
        (callLogger o).threshold =
            (if o.debug then .debug else if o.verbose then .info else .warning) ∧
          (outcomeOfRun engine input o files).stderr =
            Utf8.escapeSurrogates ((notices engine input o files).flatMap (callLogger o).write) ∧
          (outcomeOfRun engine input o files).stderr =
            (messages engine input o files).flatMap fun n => Utf8.escapeSurrogates n.line) ∧
      ((callLogger options').threshold.number ≤ (callLogger options).threshold.number →
        messages engine input options files =
          (messages engine input options' files).filter
            fun n => n.severity.passes (callLogger options).threshold) := by
  have hcomplete := hsame.complete_eq engine input files
  refine ⟨?_, fun o _ => ?_, fun hle => ?_⟩
  · unfold outcomeOfRun
    rw [hcomplete]
    exact ⟨rfl, rfl, rfl, rfl⟩
  · exact ⟨(inStep_callLogger o).own, stderr_eq_flatMap_write engine input o files,
      stderr_eq_flatMap_messages engine input o files⟩
  · rw [(inStep_callLogger options).own, (inStep_callLogger options').own] at hle
    have hnotices : notices engine input options' files = notices engine input options files :=
      congrArg (fun end' => end'.2.log) hcomplete.symm
    rw [(inStep_callLogger options).own, messages_eq_visible, messages_eq_visible, hnotices]
    exact (Log.visible_visible hle _).symm

/-- The options that ask for an execution that is not there. -/
def missingIndex : Options := { execution := some 7 }

/-- What is told when that execution is asked for. -/
def missingIndexFailure : Notice :=
  .failed .selection "Execution index 7 out of range for 1 candidate execution(s)"

/-- A call that fails has the message of its failure with any flags, and all others with the flag for
debugging output. -/
theorem missing_index_messages :
    let quiet := messages .missing (Path.ofText "e.json") missingIndex (folderWith "e.json")
    let loud := messages .missing (Path.ofText "e.json") (withFlags missingIndex false true)
      (folderWith "e.json")
    loud = [.reading "e.json", .loaded 1 (some "e.json"), .viewing 1, missingIndexFailure] ∧
      quiet = [missingIndexFailure] ∧ quiet = loud.filter (·.severity.passes .warning) := by
  obtain ⟨-, -, hfilter⟩ := flags_change_messages_only .missing (Path.ofText "e.json")
    (folderWith "e.json") (rfl : SameButFlags missingIndex (withFlags missingIndex false true))
  exact ⟨by decide +kernel, by decide +kernel, hfilter (by decide)⟩

end CommandLine

end LitmusGraph
