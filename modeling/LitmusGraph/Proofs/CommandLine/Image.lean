import LitmusGraph.Proofs.CommandLine.Frame
import LitmusGraph.Proofs.CommandLine.Plan
import LitmusGraph.Proofs.Payload.Language

/-!
# An image is made in the wake of a run

The layout engine is asked last, when the drawing is delivered. So a run is what it does up to the
image, which no engine has a part in, and then the image. An engine that is missing, or that fails
in a way that is about the image alone, leaves no more behind than a notice.

An engine that fails in another way makes the run fail, with the drawing delivered all the same. If
the user interrupts it, the exit code is that of an interruption.

Results:
* `run_eq_bind_imageOf`: a run is what it does up to the image, and the image.
* `leadsTo_runToImage`: what a run does to the world up to its image, in any sense of later that allows
  it.
* `imageOf_cases`: a run that delivers has no use for an engine, or exports an image.
* `image_is_best_effort`: what two engines have to do with the outcome of a call.
* `failing_image_leaves_drawing`: a call with an engine that fails.
* `interrupted_image_exitCode`: a call with an engine that is interrupted.
-/

namespace LitmusGraph

namespace CommandLine

/-! ## A run up to its image -/

/-- A run up to the image: all that it does before, and the drawing that it delivers, if it does, with
the index of the execution. -/
def runToImage (input : Path) (options : Options) : Run Failure (Option (Text × Nat)) :=
  if options.validateOnly then do
    validate input
    return none
  else do
    let viewer ← select (← openViewer input) options.execution
    if options.list then do
      printList viewer
      return none
    else do
      let viewer ← chooseDraw viewer options
      let (notice, dot) ← Run.ofExcept .refused viewer.render
      Run.tell notice
      deliver dot options.output
      return some (dot, viewer.index)

/-- The image of a drawing that was delivered, if there is one. -/
def imageOf (engine : Engine) (input : Path) (options : Options) :
    Option (Text × Nat) → Run Failure Unit
  | none => return ()
  | some (dot, index) => makeImage engine dot input options index

/-- **A run is what it does up to the image**, which no engine has a part in, and the image. -/
theorem run_eq_bind_imageOf (engine : Engine) (input : Path) (options : Options) :
    run engine input options = runToImage input options >>= imageOf engine input options := by
  unfold run runToImage
  cases options.validateOnly with
  | true => simp only [if_true, bind_assoc, pure_bind, imageOf, bind_pure_unit]
  | false =>
    cases options.list with
    | true =>
      simp only [Bool.false_eq_true, if_true, if_false, bind_assoc, pure_bind, imageOf, bind_pure_unit]
    | false => simp only [Bool.false_eq_true, if_false, bind_assoc, pure_bind, imageOf, draw]

section LeadsTo

variable {later : World → World → Prop} (horder : Run.Order later)
  (hnotices : Run.AllowsNotices later) (houtput : Run.AllowsOutput later)
  (hfiles : Run.AllowsFiles later)

include horder hnotices houtput hfiles

theorem leadsTo_runToImage (input : Path) (options : Options) :
    (runToImage input options).LeadsTo later := by
  unfold runToImage
  split
  · exact .bind horder (leadsTo_validate horder hnotices input) fun _ => .pure horder _
  refine .bind horder (leadsTo_openViewer horder hnotices input) fun start => ?_
  refine .bind horder (leadsTo_select horder hnotices start _) fun viewer => ?_
  split
  · exact .bind horder (leadsTo_printList horder houtput viewer) fun _ => .pure horder _
  refine .bind horder (leadsTo_chooseDraw horder hnotices viewer options) fun drawn => ?_
  refine .bind horder (.ofExcept horder _ _) fun rendered => ?_
  refine .bind horder (.tell hnotices _) fun _ => ?_
  refine .bind horder (leadsTo_deliver horder hnotices hfiles houtput _ _) fun _ => ?_
  exact .pure horder _

end LeadsTo

/-- A run that draws delivers its drawing, up to the image. -/
theorem execute_runToImage {input : Path} {options : Options} {w : World} {x : Execution} {k : Nat}
    (h : Draws input options w.files x k) :
    ∃ log, (runToImage input options).execute w =
      (do deliver (x.render (options.drawList x)) options.output
          return some (x.render (options.drawList x), k)
        : Run Failure (Option (Text × Nat))).execute { w with log } := by
  obtain ⟨viewer, log, hchoose, rfl, notice, hrender⟩ := execute_choose h
  have hrun : runToImage input options =
      (do chooseDraw (← select (← openViewer input) options.execution) options) >>=
        fun (v : Viewer) => (do
          let (notice, dot) ← Run.ofExcept .refused v.render
          Run.tell notice
          deliver dot options.output
          return some (dot, v.index)) := by
    unfold runToImage
    simp only [h.validateOnly, h.list, Bool.false_eq_true, if_false, bind_assoc]
  rw [hrun, Run.execute_bind_of_ok hchoose, hrender,
    Run.execute_bind_of_ok (Run.execute_ofExcept Failure.refused (.ok (notice, _)) _)]
  exact ⟨_, Run.execute_bind_of_ok (Run.execute_tell _ _)⟩

/-- What comes before the image calls no engine. -/
theorem calls_runToImage (input : Path) (options : Options) (w : World) :
    ((runToImage input options).execute w).2.calls = w.calls :=
  leadsTo_runToImage (.ofView World.calls) (fun _ _ => rfl) (fun _ _ => rfl) (fun _ _ => rfl) input
    options w

/-- A drawing that was delivered to a file can be read there. -/
theorem read_of_deliver {dot : Text} {path : Path} {w after : World}
    (h : (deliver dot (.file path)).execute w = (.ok (), after)) :
    ∃ bytes, after.files.read path.toText = .ok bytes := by
  cases hwrite : w.files.write path.toText [] with
  | error e => exact nomatch (execute_deliver_of_unwritable hwrite).symm.trans h
  | ok emptied =>
    by_cases hdot : Utf8.Encodable dot
    · obtain ⟨written, place, hdeliver, -, hleads, hat, -⟩ :=
        execute_deliver_file hdot.encode_eq hwrite
      obtain ⟨-, rfl⟩ := Prod.mk.inj (hdeliver.symm.trans h)
      exact ⟨_, FileTree.read_eq_ok_iff.mpr ⟨place, hleads, hat⟩⟩
    · obtain ⟨e, he⟩ := execute_deliver_file_of_alien hdot hwrite
      exact nomatch he.symm.trans h

/-- A drawing that an image is to be made of can be read from its file. -/
theorem read_of_runToImage {input : Path} {options : Options} {w after : World}
    {drawn : Text × Nat} (h : (runToImage input options).execute w = (.ok (some drawn), after))
    {path : Path} (houtput : options.output = .file path) :
    ∃ bytes, after.files.read path.toText = .ok bytes := by
  unfold runToImage at h
  split at h
  · obtain ⟨_, _, -, hend⟩ := Run.exists_of_execute_bind h
    exact nomatch hend
  obtain ⟨start, _, -, h⟩ := Run.exists_of_execute_bind h
  obtain ⟨viewer, _, -, h⟩ := Run.exists_of_execute_bind h
  split at h
  · obtain ⟨_, _, -, hend⟩ := Run.exists_of_execute_bind h
    exact nomatch hend
  obtain ⟨chosen, _, -, h⟩ := Run.exists_of_execute_bind h
  obtain ⟨rendered, _, -, h⟩ := Run.exists_of_execute_bind h
  obtain ⟨_, _, -, h⟩ := Run.exists_of_execute_bind h
  obtain ⟨_, delivered, hdeliver, hend⟩ := Run.exists_of_execute_bind h
  obtain ⟨-, rfl⟩ := Prod.mk.inj hend
  rw [houtput] at hdeliver
  exact read_of_deliver hdeliver

/-! ## The image -/

/-- How a run ends with what came of its image. -/
def endOf : Except ExportError (Option Text) × World → Except Failure Unit × World
  | (result, after) => ((result.mapError .notExported).map fun _ => (), after)

/-- An image that has a name is exported by that name. -/
theorem execute_makeImage_of_base {input : Path} {options : Options} {index : Nat} {base : Text}
    {c : CodePoint} {rest : Text} (hformat : options.format = some (c :: rest))
    (hbase : imageBase input options index = .ok base) (engine : Engine) (dot : Text) (w : World) :
    (makeImage engine dot input options index).execute w =
      endOf ((exportImage engine dot base (c :: rest) defaultFolder).execute w) := by
  unfold makeImage
  simp only [hformat]
  rw [hbase, Run.execute_bind_of_ok (Run.execute_ofExcept id (.ok base) w), Run.execute_bind,
    Run.execute_wrapError]
  cases (exportImage engine dot base (c :: rest) defaultFolder).execute w with
  | mk result after => cases result <;> rfl

/-- Without a format there is no image to make. -/
theorem makeImage_of_unwanted {input : Path} {options : Options} (h : ¬ options.WantsImage)
    (engine : Engine) (dot : Text) (index : Nat) :
    makeImage engine dot input options index = pure () := by
  unfold makeImage
  split
  · rfl
  · rfl
  · next format hempty hformat =>
    cases format with
    | nil => exact absurd rfl hempty
    | cons c rest => exact absurd ⟨c, rest, hformat⟩ h

/-- **A run that delivers has no use for an engine, or exports an image.** -/
theorem imageOf_cases (input : Path) (options : Options) (delivered : Option (Text × Nat)) :
    (∃ result, ∀ engine w, (imageOf engine input options delivered).execute w = (result, w)) ∨
      ∃ drawn base format, delivered = some drawn ∧ ∀ engine w,
        (imageOf engine input options delivered).execute w =
          endOf ((exportImage engine drawn.1 base format defaultFolder).execute w) := by
  cases delivered with
  | none => exact .inl ⟨_, fun _ _ => rfl⟩
  | some drawn =>
  obtain ⟨dot, index⟩ := drawn
  unfold imageOf
  by_cases hwants : options.WantsImage
  swap
  · refine .inl ⟨.ok (), fun engine w => ?_⟩
    simp only [makeImage_of_unwanted hwants, Run.execute_pure]
  obtain ⟨c, rest, hformat⟩ := hwants
  cases hbase : imageBase input options index with
  | error failure =>
    refine .inl ⟨.error failure, fun engine w => ?_⟩
    simp only [makeImage, hformat]
    rw [hbase]
    exact Run.execute_bind_of_error (Run.execute_ofExcept id (.error failure) w)
  | ok base =>
    exact .inr ⟨(dot, index), base, c :: rest, rfl,
      fun engine w => execute_makeImage_of_base hformat hbase engine dot w⟩

/-! ## Outcomes -/

/-- What is written of the notices of a run. -/
def written (options : Options) (log : Log) : Text :=
  Utf8.escapeSurrogates (Log.render (.ofFlags options.verbose options.debug) log)

/-- What a run that ends like this leaves behind. -/
def outcomeFrom (options : Options) : Except Failure Unit × World → Outcome
  | (.ok (), w) =>
    { exitCode := 0, stdout := w.stdout, stderr := written options w.log, calls := w.calls
      files := w.files }
  | (.error failure, w) =>
    { exitCode := failure.stage.exitCode, stdout := w.stdout
      stderr := written options (w.log ++ [.failed failure.stage failure.reason])
      calls := w.calls, files := w.files }

theorem outcomeOfRun_eq_outcomeFrom (engine : Engine) (input : Path) (options : Options)
    (files : FileTree) :
    outcomeOfRun engine input options files =
      outcomeFrom options ((run engine input options).execute { files }) := by
  unfold outcomeOfRun complete
  rcases (run engine input options).execute { files } with ⟨u | failure, w⟩ <;> rfl

theorem outcomeFrom_world (options : Options) (end' : Except Failure Unit × World) :
    (outcomeFrom options end').stdout = end'.2.stdout ∧
      (outcomeFrom options end').files = end'.2.files ∧
      (outcomeFrom options end').calls = end'.2.calls := by
  rcases end' with ⟨u | failure, w⟩ <;> exact ⟨rfl, rfl, rfl⟩

/-- The run is at its image: `w` is what it has left behind, and an image is to be made of `dot`. -/
structure AtImage (arguments : List Text) (files : FileTree) (options : Options) (w : World)
    (dot base format : Text) : Prop where
  input : ∃ input, Options.parse arguments = .ok (.run input options)
  exports : ∀ engine, outcome engine arguments files =
    outcomeFrom options (endOf ((exportImage engine dot base format defaultFolder).execute w))
  calls : w.calls = []
  output : ∀ path, options.output = .file path → ∃ bytes, w.files.read path.toText = .ok bytes

/-- No engine has a part in the outcome of a call. -/
def Engineless (arguments : List Text) (files : FileTree) : Prop :=
  ∃ o : Outcome, o.calls = [] ∧ ∀ engine, outcome engine arguments files = o

/-- **A run comes to its image, or has no use for an engine.** -/
theorem engineless_or_atImage_of_run {arguments : List Text} {input : Path} {options : Options}
    (hparse : Options.parse arguments = .ok (.run input options)) (files : FileTree) :
    Engineless arguments files ∨
      ∃ w dot base format, AtImage arguments files options w dot base format := by
  have houtcome (engine : Engine) : outcome engine arguments files = outcomeFrom options
      ((runToImage input options >>= imageOf engine input options).execute { files }) := by
    unfold outcome
    rw [hparse, ← run_eq_bind_imageOf]
    exact outcomeOfRun_eq_outcomeFrom engine input options files
  have hcalls := calls_runToImage input options { files }
  cases hbefore : (runToImage input options).execute { files } with
  | mk result w =>
  rw [hbefore] at hcalls
  cases result with
  | error failure =>
    refine .inl ⟨outcomeFrom options (.error failure, w), hcalls, fun engine => ?_⟩
    rw [houtcome, Run.execute_bind_of_error hbefore]
  | ok delivered =>
    obtain ⟨result, hnone⟩ | ⟨drawn, base, format, rfl, hexport⟩ :=
      imageOf_cases input options delivered
    · refine .inl ⟨outcomeFrom options (result, w), ?_, fun engine => ?_⟩
      · exact (outcomeFrom_world options (result, w)).2.2.trans hcalls
      · rw [houtcome, Run.execute_bind_of_ok hbefore, hnone]
    · refine .inr ⟨w, drawn.1, base, format, ⟨input, hparse⟩, fun engine => ?_, hcalls, fun path h => ?_⟩
      · rw [houtcome, Run.execute_bind_of_ok hbefore, hexport]
      · exact read_of_runToImage hbefore h

/-- A call comes to its image, or has no use for an engine. -/
theorem engineless_or_atImage (arguments : List Text) (files : FileTree) :
    Engineless arguments files ∨
      ∃ options w dot base format, AtImage arguments files options w dot base format := by
  cases hparse : Options.parse arguments with
  | error e =>
    refine .inl ⟨outcome .missing arguments files, ?_, fun engine => ?_⟩ <;>
      simp only [outcome, hparse]
  | ok command =>
    cases command with
    | help =>
      refine .inl ⟨outcome .missing arguments files, ?_, fun engine => ?_⟩ <;>
        simp only [outcome, hparse]
    | run input options => exact (engineless_or_atImage_of_run hparse files).imp_right fun h => ⟨_, h⟩

/-! ## Two engines -/

/-- Two outcomes of a call have the same results: what is written to the standard output, what is in
the file for the drawing, and what is in any other file. -/
structure SameResults (arguments : List Text) (a b : Outcome) : Prop where
  stdout : a.stdout = b.stdout
  output : ∀ input options path, Options.parse arguments = .ok (.run input options) →
    options.output = .file path → a.files.read path.toText = b.files.read path.toText
  files : a.files.SameFiles b.files

/-- What two outcomes write to the standard error is the same up to notices about an image, which
stand behind all others. -/
def SameButImageNotices (a b : Outcome) : Prop :=
  a.stderr = b.stderr ∨ ∃ options log lines lines', a.stderr = written options (log ++ lines) ∧
    b.stderr = written options (log ++ lines') ∧ ∀ n ∈ lines ++ lines', n.concernsImage = true

section AtImage

variable {arguments : List Text} {files : FileTree} {options : Options} {w : World}
  {dot base format : Text}

/-- The results of a call are those that it has when it comes to its image. -/
theorem AtImage.sameResults (h : AtImage arguments files options w dot base format)
    (engine engine' : Engine) :
    SameResults arguments (outcome engine arguments files) (outcome engine' arguments files) := by
  obtain ⟨hstdout, hkeeps, hsame⟩ := exportImage_spares engine dot base format w
  obtain ⟨hstdout', hkeeps', hsame'⟩ := exportImage_spares engine' dot base format w
  obtain ⟨hout, hfiles, -⟩ := outcomeFrom_world options
    (endOf ((exportImage engine dot base format defaultFolder).execute w))
  obtain ⟨hout', hfiles', -⟩ := outcomeFrom_world options
    (endOf ((exportImage engine' dot base format defaultFolder).execute w))
  rw [h.exports engine, h.exports engine']
  refine ⟨?_, fun input given path hparse hfile => ?_, ?_⟩
  · rw [hout, hout']
    exact hstdout.trans hstdout'.symm
  · obtain ⟨input', hparse'⟩ := h.input
    cases hparse'.symm.trans hparse
    obtain ⟨bytes, hread⟩ := h.output path hfile
    rw [hfiles, hfiles']
    exact (FileTree.read_of_forall_keeps hkeeps hread).trans
      (FileTree.read_of_forall_keeps hkeeps' hread).symm
  · rw [hfiles, hfiles']
    exact hsame.symm.trans hsame'

/-- **An engine that is installed is called once**, when all else is done, and its answer makes the
outcome. -/
theorem AtImage.exists_call (h : AtImage arguments files options w dot base format) :
    ∃ call before lines, before.log = w.log ++ lines ∧ (∀ n ∈ lines, n.concernsImage = true) ∧
      ∀ answer, (outcome (.installed answer) arguments files).calls = [call] ∧
        outcome (.installed answer) arguments files =
          outcomeFrom options (endOf (answered call before (answer call))) := by
  obtain ⟨path, after, lines, hprepared⟩ := exists_prepared base w
  have hexports (answer : LayoutCall → Except LayoutFailure Text) := h.exports (.installed answer)
  simp only [hprepared.execute_exportImage] at hexports
  refine ⟨_, _, lines, rfl, hprepared.concernsImage, fun answer => ⟨?_, hexports answer⟩⟩
  rw [hexports, (outcomeFrom_world options _).2.2, endOf, calls_answered]
  exact congrArg (· ++ _) h.calls

/-- A call with an engine that spares it ends well, and tells of nothing else but the image behind
what it tells in front. -/
theorem AtImage.outcome_of_spares (h : AtImage arguments files options w dot base format)
    {engine : Engine} (hspares : engine.Spares (outcome engine arguments files).calls) :
    (outcome engine arguments files).exitCode = 0 ∧ ∃ lines,
      (outcome engine arguments files).stderr = written options (w.log ++ lines) ∧
        ∀ n ∈ lines, n.concernsImage = true := by
  cases engine with
  | missing =>
    rw [h.exports, execute_exportImage_missing]
    exact ⟨rfl, [.engineMissing], rfl, List.forall_mem_singleton.mpr rfl⟩
  | installed answer =>
    obtain ⟨call, before, lines, hlog, hlines, hcall⟩ := h.exists_call
    obtain ⟨hcalls, houtcome⟩ := hcall answer
    rw [hcalls] at hspares
    rw [houtcome]
    have hlines (n : Notice) (hn : n.concernsImage = true) :
        ∀ m ∈ lines ++ [n], m.concernsImage = true :=
      List.forall_mem_append.mpr ⟨hlines, List.forall_mem_singleton.mpr hn⟩
    cases hanswer : answer call with
    | ok image =>
      refine ⟨rfl, lines ++ [exportDone image], ?_, hlines _ rfl⟩
      rw [← List.append_assoc, ← hlog]
      rfl
    | error failure =>
      have habout := hspares answer rfl call List.mem_cons_self failure hanswer
      rw [answered_of_aboutImage call before habout]
      refine ⟨rfl, lines ++ [exportFailed call failure], ?_, hlines _ rfl⟩
      rw [← List.append_assoc, ← hlog]
      rfl

/-- A failure for reasons of the image alone shows in the last notice and nowhere else. -/
theorem AtImage.outcome_of_failing (h : AtImage arguments files options w dot base format)
    {answer answer' : LayoutCall → Except LayoutFailure Text} {call : LayoutCall} {image : Text}
    {failure : LayoutFailure} (hcall : call ∈ (outcome (.installed answer) arguments files).calls)
    (himage : answer call = .ok image) (hfailure : answer' call = .error failure)
    (habout : failure.AboutImage) :
    ∃ log, (outcome (.installed answer) arguments files).stderr =
        written options (log ++ [exportDone image]) ∧
      outcome (.installed answer') arguments files =
        { outcome (.installed answer) arguments files with
          stderr := written options (log ++ [exportFailed call failure]) } := by
  obtain ⟨call', before, lines, -, -, hanswered⟩ := h.exists_call
  obtain ⟨hcalls, houtcome⟩ := hanswered answer
  obtain ⟨-, houtcome'⟩ := hanswered answer'
  rw [hcalls, List.mem_singleton] at hcall
  subst hcall
  rw [houtcome, houtcome', himage, hfailure, answered_of_aboutImage call before habout]
  exact ⟨before.log, rfl, rfl⟩

/-- An engine that is interrupted makes the call fail as one that was interrupted. -/
theorem AtImage.exitCode_of_interrupted (h : AtImage arguments files options w dot base format)
    {answer : LayoutCall → Except LayoutFailure Text} {call : LayoutCall}
    (hcall : call ∈ (outcome (.installed answer) arguments files).calls)
    (hinterrupted : answer call = .error .interrupted) :
    (outcome (.installed answer) arguments files).exitCode = 4 := by
  obtain ⟨call', before, lines, -, -, hanswered⟩ := h.exists_call
  obtain ⟨hcalls, houtcome⟩ := hanswered answer
  rw [hcalls, List.mem_singleton] at hcall
  subst hcall
  rw [houtcome, hinterrupted]
  rfl

end AtImage

/-- **An image is made as well as may be**: whatever the engine, the results of a call are the same.
If no engine fails for another reason than the image, the exit code is the same too, and what is
written to the standard error is the same up to notices about the image; a failure in place of an
image changes nothing but the last notice, and `exportImage` gives no image instead of failing. An
engine that the user interrupts is passed on, and the exit code is 4. -/
theorem image_is_best_effort (arguments : List Text) (files : FileTree) (engine engine' : Engine) :
    let a := outcome engine arguments files
    let b := outcome engine' arguments files
    SameResults arguments a b ∧
      (engine.Spares a.calls → engine'.Spares b.calls →
        a.exitCode = b.exitCode ∧ SameButImageNotices a b) ∧
      (∀ answer answer' call image failure, engine = .installed answer →
        engine' = .installed answer' → call ∈ a.calls → answer call = .ok image →
        answer' call = .error failure → failure.AboutImage →
        ∃ options log, a.stderr = written options (log ++ [exportDone image]) ∧
          b = { a with stderr := written options (log ++ [exportFailed call failure]) }) ∧
      (engine.GivesNone → ∀ dot base format w,
        ∃ after, (exportImage engine dot base format defaultFolder).execute w = (.ok none, after)) ∧
      (∀ answer call, engine = .installed answer → call ∈ a.calls →
        answer call = .error .interrupted → a.exitCode = 4) := by
  have hgives : engine.GivesNone → ∀ dot base format w, ∃ after,
      (exportImage engine dot base format defaultFolder).execute w = (.ok none, after) := by
    intro hnone dot base format w
    obtain hexport | ⟨e, after, hmake, hcode, -⟩ :=
      execute_exportImage_of_gives_none hnone dot base format defaultFolder w
    · exact hexport
    · have hsome := code?_of_makeFolders_defaultFolder hmake
      rw [hcode] at hsome
      exact nomatch hsome
  intro a b
  obtain ⟨o, hcalls, hsame⟩ | ⟨options, w, dot, base, format, h⟩ :=
    engineless_or_atImage arguments files
  · have ha : a = o := hsame engine
    have hb : b = o := hsame engine'
    rw [ha, hb, hcalls]
    refine ⟨⟨rfl, fun _ _ _ _ _ => rfl, .refl _⟩, fun _ _ => ⟨rfl, .inl rfl⟩, ?_, hgives, ?_⟩
    · exact fun _ _ _ _ _ _ _ hcall => absurd hcall List.not_mem_nil
    · exact fun _ _ _ hcall => absurd hcall List.not_mem_nil
  · refine ⟨h.sameResults engine engine', fun hspares hspares' => ?_, ?_, hgives, ?_⟩
    · obtain ⟨hexit, lines, hstderr, hlines⟩ := h.outcome_of_spares hspares
      obtain ⟨hexit', lines', hstderr', hlines'⟩ := h.outcome_of_spares hspares'
      exact ⟨hexit.trans hexit'.symm, .inr ⟨options, w.log, lines, lines', hstderr, hstderr',
        List.forall_mem_append.mpr ⟨hlines, hlines'⟩⟩⟩
    · rintro answer answer' call image failure rfl rfl hcall himage hfailure habout
      exact ⟨options, h.outcome_of_failing hcall himage hfailure habout⟩
    · rintro answer call rfl hcall hinterrupted
      exact h.exitCode_of_interrupted hcall hinterrupted

/-- Arguments that ask for a drawing in a file, and for an image of it. -/
def imageArguments : List Text := ["-i", "e.json", "-o", "o.dot", "--format", "svg"]

/-- The call for that image. -/
def imageCall : LayoutCall where
  path := "execution_graphs/o"
  format := "svg"
  dot := payloadExecution.render defaultDraw

/-- An engine that makes every image. -/
def makesImages : Engine := .installed fun call => .ok (call.path ++ "." ++ call.format)

/-- An engine whose program fails. -/
def endsWithStatus (status : Int) : Engine := .installed fun _ => .error (.exitStatus status)

/-- An engine that the user interrupts. -/
def interruptedEngine : Engine := .installed fun _ => .error .interrupted

/-- **A program that fails in place of an image** shows in one notice: the drawing is in its file, and
the exit code is 0. It would be 4 if the user interrupted the program. -/
theorem failing_image_leaves_drawing :
    let made := outcome makesImages imageArguments (folderWith "e.json")
    let failed := outcome (endsWithStatus 1) imageArguments (folderWith "e.json")
    let interrupted := outcome interruptedEngine imageArguments (folderWith "e.json")
    (made.calls = [imageCall] ∧ made.exitCode = 0 ∧ ∃ bytes, made.files.read "o.dot" = .ok bytes) ∧
      SameResults imageArguments made failed ∧ made.exitCode = failed.exitCode ∧
      (∃ options log, made.stderr = written options (log ++ [exportDone "execution_graphs/o.svg"]) ∧
        failed = { made with
          stderr := written options (log ++ [exportFailed imageCall (.exitStatus 1)]) }) ∧
      (∃ after, (exportImage (endsWithStatus 1) imageCall.dot "o" "svg" defaultFolder).execute
        { files := folderWith "e.json" } = (.ok none, after)) ∧
      SameResults imageArguments interrupted made ∧ interrupted.exitCode = 4 := by
  have hcalls : (outcome makesImages imageArguments (folderWith "e.json")).calls = [imageCall] := by
    decide +kernel
  have hcode : (outcome makesImages imageArguments (folderWith "e.json")).exitCode = 0 := by
    decide +kernel
  have hinterrupted : (outcome interruptedEngine imageArguments (folderWith "e.json")).calls =
      [imageCall] := by
    decide +kernel
  obtain ⟨bytes, hread⟩ : ∃ bytes, ((outcome makesImages imageArguments
      (folderWith "e.json")).files.read "o.dot").toOption = some bytes :=
    Option.isSome_iff_exists.mp (by decide +kernel)
  have habout : (LayoutFailure.exitStatus 1).AboutImage := .inr (.inl ⟨1, rfl⟩)
  have hmakes (calls : List LayoutCall) : makesImages.Spares calls := by
    rintro answer ⟨⟩ call - failure hfailure
    exact nomatch hfailure
  have hspares (calls : List LayoutCall) : (endsWithStatus 1).Spares calls := by
    rintro answer ⟨⟩ call - failure ⟨⟩
    exact habout
  have hnone : (endsWithStatus 1).GivesNone := by
    rintro answer ⟨⟩ call
    exact ⟨_, rfl, habout⟩
  obtain ⟨hsame, hexit, hfailing, -⟩ := image_is_best_effort imageArguments (folderWith "e.json")
    makesImages (endsWithStatus 1)
  obtain ⟨-, -, -, hgives, -⟩ := image_is_best_effort imageArguments (folderWith "e.json")
    (endsWithStatus 1) makesImages
  obtain ⟨hsame', -, -, -, hstops⟩ := image_is_best_effort imageArguments (folderWith "e.json")
    interruptedEngine makesImages
  refine ⟨⟨hcalls, hcode, bytes, Payload.toOption_eq_some_iff.mp hread⟩, hsame,
    (hexit (hmakes _) (hspares _)).1, ?_, hgives hnone _ _ _ _, hsame', ?_⟩
  · exact hfailing _ _ imageCall _ (.exitStatus 1) rfl rfl (hcalls ▸ List.mem_cons_self) rfl rfl habout
  · exact hstops _ imageCall rfl (hinterrupted ▸ List.mem_cons_self) rfl

/-- **An engine that is interrupted** makes a call fail that ends well without an engine. -/
theorem interrupted_image_exitCode :
    (outcome .missing imageArguments (folderWith "e.json")).exitCode = 0 ∧
      (outcome interruptedEngine imageArguments (folderWith "e.json")).exitCode ≠ 0 := by
  decide +kernel

end CommandLine

end LitmusGraph
