import LitmusGraph.CommandLine
import LitmusGraph.Proofs.Layout.Export
import LitmusGraph.Proofs.Payload.Limits
import LitmusGraph.Proofs.Viewer.Session
import Mathlib

/-!
# A drawing is delivered

A run that draws reads the executions, selects one, chooses the draw list, and delivers the drawing
to the standard output or to a file. Whatever the options, that is the drawing of the execution
selected with the draw list that the options ask for, and nothing else is written.

Results:
* `Draws`: what it takes for a run to draw an execution.
* `execute_openViewer`, `execute_select`, `execute_chooseDraw`: what the parts in front of the
  delivery do to the world.
* `execute_run`: a run that draws is a delivery, and perhaps an image, of one drawing.
* `execute_deliver_standard`, `execute_deliver_file`: the two deliveries.
* `execute_makeImage`, `execute_makeImage_of_unnamed`: an image in the wake of a delivery.
* `delivers_drawing`: the outcome of a run that draws.
* `unnamed_input_exitCode`: the one way in which such a run fails behind its delivery.
-/

namespace LitmusGraph

namespace Options

/-- The draw list that the options ask for: the one that the execution wants shown, else the one
given, else the default one. -/
def drawList (options : Options) (x : Execution) : List Text :=
  if options.shown then x.shown else options.relations.getD defaultDraw

/-- The options ask for an image: the format is given and not empty. -/
def WantsImage (options : Options) : Prop := ∃ c rest, options.format = some (c :: rest)

end Options

namespace CommandLine

/-- A run with these options draws the execution `x`: it neither validates nor lists, and `x` is the
execution of index `k` among those that the payload file holds. -/
structure Draws (input : Path) (options : Options) (files : FileTree) (x : Execution) (k : Nat) :
    Prop where
  validateOnly : options.validateOnly = false
  list : options.list = false
  execution : options.execution = some (k : Int)
  loads : ∃ xs, (Payload.load levels files input.toText).2 = .ok xs ∧ xs[k]? = some x

/-- What is drawn is drawn wherever it goes. -/
theorem Draws.withOutput {input : Path} {options : Options} {files : FileTree} {x : Execution}
    {k : Nat} (h : Draws input options files x k) (output : Destination) :
    Draws input { options with output } files x k :=
  ⟨h.validateOnly, h.list, h.execution, h.loads⟩

/-- What is drawn was read, so its numbers can be written. -/
theorem Draws.isDrawable {input : Path} {options : Options} {files : FileTree} {x : Execution}
    {k : Nat} (h : Draws input options files x k) : x.IsDrawable := by
  obtain ⟨xs, hload, hx⟩ := h.loads
  exact Payload.isDrawable_of_load hload x (List.mem_of_getElem? hx)

/-! ## The parts in front of the delivery -/

theorem execute_told {ε α : Type} (wrap : ε → Failure) (log : Log) (result : Except ε α) (w : World) :
    (told wrap (log, result)).execute w =
      (result.mapError wrap, { w with log := w.log ++ log }) := by
  unfold told
  rw [Run.execute_bind_of_ok (Run.execute_forM_tell log w), Run.execute_ofExcept]

/-- A file with executions is opened at the first one. -/
theorem execute_openViewer {input : Path} {w : World} {log : Log} {xs : List Execution}
    {notice : Notice} {start : Viewer}
    (hload : Payload.load levels w.files input.toText = (log, .ok xs))
    (hstart : Viewer.ofExecutions xs = .ok (notice, start)) :
    (openViewer input).execute w = (.ok start, { w with log := w.log ++ log ++ [notice] }) := by
  unfold openViewer
  rw [Run.execute_bind_of_ok (Run.execute_files w), hload]
  rw [Run.execute_bind_of_ok (execute_told Failure.unreadable log (.ok xs) w)]
  rw [hstart, Run.execute_bind_of_ok (Run.execute_ofExcept Failure.refused (.ok (notice, start)) _)]
  exact Run.execute_bind_of_ok (Run.execute_tell notice _)

/-- An execution is selected as the viewer selects it. -/
theorem execute_select {viewer selected : Viewer} {index : Int} {notice : Notice}
    (h : viewer.select index = .ok (notice, selected)) (w : World) :
    (select viewer (some index)).execute w = (.ok selected, { w with log := w.log ++ [notice] }) := by
  unfold select
  simp only [h]
  rw [Run.execute_bind_of_ok (Run.execute_ofExcept Failure.refused (.ok (notice, selected)) w)]
  exact Run.execute_bind_of_ok (Run.execute_tell notice _)

/-- The draw list is the one that the options ask for. -/
theorem execute_chooseDraw {viewer : Viewer} (hdraw : viewer.draw = defaultDraw) (options : Options)
    (w : World) :
    ∃ log, (chooseDraw viewer options).execute w =
      (.ok { viewer with draw := options.drawList viewer.current }, { w with log }) := by
  unfold chooseDraw Options.drawList
  by_cases hshown : options.shown = true
  · rw [if_pos hshown, if_pos hshown]
    exact ⟨w.log, rfl⟩
  rw [if_neg hshown, if_neg hshown]
  cases options.relations with
  | none =>
    rw [Option.getD_none, ← hdraw]
    exact ⟨w.log, rfl⟩
  | some names => exact ⟨_, Run.execute_bind_of_ok (Run.execute_tell _ w)⟩

/-- The executions are read, and the one of an index is selected. -/
theorem execute_openViewer_select {input : Path} {w : World} {xs : List Execution} {k : Nat}
    (hload : (Payload.load levels w.files input.toText).2 = .ok xs) (hk : k < xs.length) :
    ∃ viewer log, (do select (← openViewer input) (some (k : Int)) : Run Failure Viewer).execute w =
        (.ok viewer, { w with log }) ∧
      viewer.executions = xs ∧ viewer.index = k ∧ viewer.draw = defaultDraw := by
  have hne : xs ≠ [] := List.ne_nil_of_length_pos (Nat.lt_of_le_of_lt (Nat.zero_le k) hk)
  obtain ⟨start, hstart, hxs, -, hdraw⟩ := Viewer.exists_ofExecutions hne
  have hsize : (k : Int) < start.size := by
    unfold Viewer.size
    rw [hxs]
    exact Int.ofNat_lt.mpr hk
  obtain ⟨viewer, hselect, hxs', hindex, hdraw'⟩ :=
    Viewer.exists_select (Int.natCast_nonneg k) hsize
  have hopen := execute_openViewer (Prod.ext rfl hload) hstart
  exact ⟨viewer, _, (Run.execute_bind_of_ok hopen).trans (execute_select hselect _),
    hxs'.trans hxs, Int.ofNat_inj.mp hindex, hdraw'.trans hdraw⟩

/-- A run that draws has the execution `x` before it, with the draw list that the options ask for. -/
theorem execute_choose {input : Path} {options : Options} {w : World} {x : Execution} {k : Nat}
    (h : Draws input options w.files x k) :
    ∃ viewer log, (do chooseDraw (← select (← openViewer input) options.execution) options
        : Run Failure Viewer).execute w = (.ok viewer, { w with log }) ∧
      viewer.index = k ∧ ∃ notice, viewer.render = .ok (notice, x.render (options.drawList x)) := by
  have hdrawable := h.isDrawable
  obtain ⟨-, -, hindex, xs, hload, hx⟩ := h
  obtain ⟨hk, hget⟩ := List.getElem?_eq_some_iff.mp hx
  obtain ⟨viewer, log, hviewer, rfl, rfl, hdraw⟩ := execute_openViewer_select hload hk
  obtain ⟨log', hchoose⟩ := execute_chooseDraw hdraw options { w with log }
  have hcurrent : viewer.current = x := hget
  subst hcurrent
  refine ⟨{ viewer with draw := options.drawList viewer.current }, log', ?_, rfl, _,
    Viewer.render_of_isDrawable hdrawable⟩
  rw [hindex, ← bind_assoc, Run.execute_bind_of_ok hviewer]
  exact hchoose

/-- **A run that draws is a delivery**, and perhaps an image, of one drawing. -/
theorem execute_run (engine : Engine) {input : Path} {options : Options} {w : World}
    {x : Execution} {k : Nat} (h : Draws input options w.files x k) :
    ∃ log, (run engine input options).execute w =
      (do deliver (x.render (options.drawList x)) options.output
          makeImage engine (x.render (options.drawList x)) input options k : Run Failure Unit).execute
        { w with log } := by
  obtain ⟨viewer, log, hchoose, rfl, notice, hrender⟩ := execute_choose h
  have hrun : run engine input options =
      (do chooseDraw (← select (← openViewer input) options.execution) options) >>=
        fun (v : Viewer) => (do
          let drawn ← Run.ofExcept .refused v.render
          Run.tell drawn.1
          deliver drawn.2 options.output
          makeImage engine drawn.2 input options v.index) := by
    unfold run draw
    simp only [h.validateOnly, h.list, Bool.false_eq_true, if_false, bind_assoc]
  rw [hrun, Run.execute_bind_of_ok hchoose, hrender,
    Run.execute_bind_of_ok (Run.execute_ofExcept Failure.refused (.ok (notice, _)) _)]
  exact ⟨_, Run.execute_bind_of_ok (Run.execute_tell _ _)⟩

/-! ## Deliveries -/

theorem execute_print {t : Text} {bytes : Bytes} (h : Utf8.encode t = .ok bytes) (w : World) :
    (print t).execute w = (.ok (), { w with stdout := w.stdout ++ t }) := by
  unfold print
  rw [h, Run.execute_bind_of_ok (Run.execute_ofExcept Failure.notEncodable (.ok bytes) w)]
  exact Run.execute_emit t w

/-- **A drawing is delivered to the standard output** in full, and nothing else happens. -/
theorem execute_deliver_standard {dot : Text} {bytes : Bytes} (h : Utf8.encode dot = .ok bytes)
    (w : World) :
    (deliver dot .standard).execute w = (.ok (), { w with stdout := w.stdout ++ dot }) :=
  execute_print h w

/-- **A drawing is delivered to a file** in full, and no other file changes. -/
theorem execute_deliver_file {dot : Text} {bytes : Bytes} {path : Path} {w : World}
    {emptied : FileTree} (hbytes : Utf8.encode dot = .ok bytes)
    (hwrite : w.files.write path.toText [] = .ok emptied) :
    ∃ after place, (deliver dot (.file path)).execute w = (.ok (), after) ∧
      after.stdout = w.stdout ∧ after.files.Leads path.toText place ∧
      after.files.root.at? place = some (.file bytes) ∧ w.files.Keeps after.files place := by
  obtain ⟨files, place, hagain, hleads, hat, hkeeps⟩ := FileTree.write_write_spec hwrite bytes
  refine ⟨{ w with files, log := w.log ++ [.written path.toText] }, place, ?_, rfl, hleads, hat,
    hkeeps⟩
  unfold deliver
  simp only
  -- The file is written twice: emptied first, and filled once the drawing is encoded.
  rw [Run.execute_bind_of_ok (Run.execute_files w), hwrite,
    Run.execute_bind_of_ok (Run.execute_ofExcept Failure.notWritable (.ok emptied) w),
    Run.execute_bind_of_ok (Run.execute_setFiles emptied w), hbytes,
    Run.execute_bind_of_ok (Run.execute_ofExcept Failure.notEncodable (.ok bytes) _), hagain,
    Run.execute_bind_of_ok (Run.execute_ofExcept Failure.notWritable (.ok files) _),
    Run.execute_bind_of_ok (Run.execute_setFiles files _)]
  rfl

/-! ## Images -/

section MakeImage

variable {engine : Engine} {dot : Text} {input : Path} {options : Options} {index : Nat}

/-- **An image in the wake of a delivery** changes neither the standard output nor a file. -/
theorem execute_makeImage (hengine : engine.Tame)
    (hbase : options.WantsImage → ∃ base, imageBase input options index = .ok base) (w : World) :
    ∃ after, (makeImage engine dot input options index).execute w = (.ok (), after) ∧
      after.stdout = w.stdout ∧ ∀ place, w.files.Keeps after.files place := by
  unfold makeImage
  cases hformat : options.format with
  | none => exact ⟨w, rfl, rfl, fun place => FileTree.Keeps.refl _ place⟩
  | some format =>
    cases format with
    | nil => exact ⟨w, rfl, rfl, fun place => FileTree.Keeps.refl _ place⟩
    | cons c rest =>
      obtain ⟨base, hbase⟩ := hbase ⟨c, rest, hformat⟩
      obtain ⟨image, after, himage, hstdout, hkeeps⟩ :=
        execute_exportImage hengine dot base (c :: rest) w
      refine ⟨after, ?_, hstdout, hkeeps⟩
      have hwrap := Run.execute_wrapError Failure.notExported
        (exportImage engine dot base (c :: rest) defaultFolder) w
      rw [himage] at hwrap
      simp only
      rw [hbase, Run.execute_bind_of_ok (Run.execute_ofExcept id (.ok base) w),
        Run.execute_bind_of_ok hwrap]
      rfl

/-- An image cannot be named after a payload file that has no name. -/
theorem execute_makeImage_of_unnamed (himage : options.WantsImage)
    (houtput : options.output = .standard) (hnamed : options.isNamed = false) (w : World) :
    (makeImage engine dot input options index).execute w = (.error .noStem, w) := by
  obtain ⟨c, rest, hformat⟩ := himage
  have hbase : imageBase input options index = .error .noStem := by
    unfold imageBase
    rw [houtput]
    exact if_neg (Bool.eq_false_iff.mp hnamed)
  unfold makeImage
  rw [hformat]
  simp only
  rw [hbase]
  exact Run.execute_bind_of_error (Run.execute_ofExcept id (.error Failure.noStem) w)

end MakeImage

/-! ## Outcomes -/

/-- The exit code of a result. -/
def exitCodeOf : Except Failure Unit → Nat
  | .ok () => 0
  | .error failure => failure.stage.exitCode

/-- The outcome of a run is what it leaves behind. -/
theorem outcomeOfRun_of_execute {engine : Engine} {input : Path} {options : Options}
    {files : FileTree} {result : Except Failure Unit} {after : World}
    (h : (run engine input options).execute { files } = (result, after)) :
    (outcomeOfRun engine input options files).exitCode = exitCodeOf result ∧
      (outcomeOfRun engine input options files).stdout = after.stdout ∧
      (outcomeOfRun engine input options files).files = after.files := by
  unfold outcomeOfRun complete
  rw [h]
  cases result with
  | ok u => exact ⟨rfl, rfl, rfl⟩
  | error failure => exact ⟨rfl, rfl, rfl⟩

section Drawing

variable {engine : Engine} {input : Path} {options : Options} {files : FileTree}
  {x : Execution} {k : Nat} {bytes : Bytes}

/-- A drawing goes to the standard output, and all is well unless the image has no name. -/
theorem outcome_standard (h : Draws input options files x k) (hengine : engine.Tame)
    (hbytes : Utf8.encode (x.render (options.drawList x)) = .ok bytes)
    (houtput : options.output = .standard) :
    (outcomeOfRun engine input options files).stdout = x.render (options.drawList x) ∧
      ((options.WantsImage → options.isNamed = true) →
        (outcomeOfRun engine input options files).exitCode = 0) ∧
      (options.WantsImage → options.isNamed = false →
        (outcomeOfRun engine input options files).exitCode = 5) := by
  obtain ⟨log, hrun⟩ := execute_run engine (w := { files }) h
  rw [houtput, Run.execute_bind_of_ok (execute_deliver_standard hbytes _)] at hrun
  by_cases hnamed : options.WantsImage → options.isNamed = true
  · have hbase : options.WantsImage → ∃ base, imageBase input options k = .ok base := by
      intro himage
      unfold imageBase
      rw [houtput]
      exact ⟨_, if_pos (hnamed himage)⟩
    obtain ⟨after, himage, hstdout, -⟩ := execute_makeImage hengine hbase _
    obtain ⟨hexit, hout, -⟩ := outcomeOfRun_of_execute (hrun.trans himage)
    refine ⟨hout.trans hstdout, fun _ => hexit, fun hwants hunnamed => ?_⟩
    exact nomatch (hnamed hwants).symm.trans hunnamed
  · rw [Classical.not_imp, Bool.not_eq_true] at hnamed
    obtain ⟨hwants, hunnamed⟩ := hnamed
    obtain ⟨hexit, hout, -⟩ := outcomeOfRun_of_execute
      (hrun.trans (execute_makeImage_of_unnamed hwants houtput hunnamed _))
    refine ⟨hout, fun hnamed => ?_, fun _ _ => hexit⟩
    exact nomatch (hnamed hwants).symm.trans hunnamed

/-- A drawing goes to a file, and nothing to the standard output. -/
theorem outcome_file (h : Draws input options files x k) (hengine : engine.Tame)
    (hbytes : Utf8.encode (x.render (options.drawList x)) = .ok bytes) {path : Path}
    (houtput : options.output = .file path) {emptied : FileTree}
    (hwrite : files.write path.toText [] = .ok emptied) :
    (outcomeOfRun engine input options files).exitCode = 0 ∧
      (outcomeOfRun engine input options files).stdout = [] ∧
      (outcomeOfRun engine input options files).files.read path.toText = .ok bytes ∧
      ∃ place, (outcomeOfRun engine input options files).files.Leads path.toText place ∧
        files.Keeps (outcomeOfRun engine input options files).files place := by
  obtain ⟨log, hrun⟩ := execute_run engine (w := { files }) h
  obtain ⟨written, place, hdeliver, hstdout, hleads, hat, hkeeps⟩ :=
    execute_deliver_file (w := { files, log }) hbytes hwrite
  rw [houtput, Run.execute_bind_of_ok hdeliver] at hrun
  have hbase : options.WantsImage → ∃ base, imageBase input options k = .ok base := by
    intro _
    unfold imageBase
    rw [houtput]
    exact ⟨path.stem, rfl⟩
  obtain ⟨after, himage, hstdout', hkeeps'⟩ := execute_makeImage hengine hbase written
  obtain ⟨hexit, hout, hfiles⟩ := outcomeOfRun_of_execute (hrun.trans himage)
  have hread := FileTree.read_of_forall_keeps hkeeps'
    (FileTree.read_eq_ok_iff.mpr ⟨place, hleads, hat⟩)
  rw [hfiles]
  exact ⟨hexit, hout.trans (hstdout'.trans hstdout), hread, place, (hkeeps' []).leads hleads,
    hkeeps.trans (hkeeps' place)⟩

/-- **A drawing is delivered in full to where the options send it.** Without a file it is all there is
on the standard output, and the run ends well, unless an image is asked for that has no name: then
the run fails when all is delivered. With a file that can be written, the file holds the drawing, be
it the payload file itself, nothing is on the standard output, the run ends well, and every file at
another place is as it was. -/
theorem delivers_drawing (h : Draws input options files x k) (hengine : engine.Tame)
    (hbytes : Utf8.encode (x.render (options.drawList x)) = .ok bytes) :
    let shown := outcomeOfRun engine input { options with output := .standard } files
    (shown.stdout = x.render (options.drawList x) ∧
      ((options.WantsImage → options.isNamed = true) → shown.exitCode = 0) ∧
      (options.WantsImage → options.isNamed = false → shown.exitCode = 5)) ∧
    ∀ path emptied, files.write path.toText [] = .ok emptied →
      let filed := outcomeOfRun engine input { options with output := .file path } files
      filed.exitCode = 0 ∧ filed.stdout = [] ∧
      filed.files.read path.toText = .ok bytes ∧ Utf8.encode shown.stdout = .ok bytes ∧
      ∃ place, filed.files.Leads path.toText place ∧
        ∀ names content, names ≠ place → files.root.at? names = some (.file content) →
          filed.files.root.at? names = some (.file content) := by
  have hshown := outcome_standard (h.withOutput .standard) hengine hbytes rfl
  refine ⟨hshown, fun path emptied hwrite => ?_⟩
  obtain ⟨hexit, hstdout, hread, place, hleads, hkeeps⟩ :=
    outcome_file (h.withOutput (.file path)) hengine hbytes rfl hwrite
  refine ⟨hexit, hstdout, hread, ?_, place, hleads, hkeeps.nodes.contents⟩
  rw [hshown.1]
  exact hbytes

end Drawing

/-! ## Two runs -/

/-- A file with one execution without events, as its bytes. -/
def payload : Bytes := (Utf8.encode "[\x7b\"events\": [], \"show\": [\"po\"]\x7d]").toOption.getD []

/-- The execution in the file. -/
def payloadExecution : Execution := { events := [], sets := [], relations := [], shown := ["po"] }

/-- A folder with the file under a name. -/
def folderWith (name : Text) : FileTree where
  root := .folder [(name, .file payload)]
  working := []

theorem draws_payloadExecution {name : Text}
    (hload : (Payload.load levels (folderWith name) (Path.ofText name).toText).2 = .ok [payloadExecution])
    {options : Options} (hvalidate : options.validateOnly = false) (hlist : options.list = false)
    (hindex : options.execution = some 0) :
    Draws (Path.ofText name) options (folderWith name) payloadExecution 0 :=
  ⟨hvalidate, hlist, hindex, [payloadExecution], hload, rfl⟩

/-- The drawing goes to the payload file itself. -/
theorem delivers_drawing_to_input :
    let filed := outcomeOfRun .missing (Path.ofText "e.json")
      { relations := some [], format := some "svg", output := .file (Path.ofText "e.json") }
      (folderWith "e.json")
    ∃ bytes, Utf8.encode (payloadExecution.render []) = .ok bytes ∧
      filed.exitCode = 0 ∧ filed.stdout = [] ∧ filed.files.read "e.json" = .ok bytes := by
  obtain ⟨bytes, hbytes⟩ : ∃ bytes, Utf8.encode (payloadExecution.render []) = .ok bytes :=
    ⟨_, by cbv⟩
  have hdraws : Draws (Path.ofText "e.json") { relations := some [], format := some "svg" }
      (folderWith "e.json") payloadExecution 0 := draws_payloadExecution (by cbv) rfl rfl rfl
  have hengine : Engine.missing.Tame := trivial
  obtain ⟨emptied, hwrite⟩ : ∃ emptied,
      (folderWith "e.json").write (Path.ofText "e.json").toText [] = .ok emptied := ⟨_, by cbv⟩
  obtain ⟨hexit, hstdout, hread, -⟩ :=
    (delivers_drawing hdraws hengine hbytes).2 (Path.ofText "e.json") emptied hwrite
  exact ⟨bytes, hbytes, hexit, hstdout, hread⟩

/-- **An image without a name** makes a run fail that has delivered its drawing: the payload file is
given by an end mark. -/
theorem unnamed_input_exitCode :
    ∃ input options, Options.parse ["-i=--", "--format", "svg"] = .ok (.run input options) ∧
      Draws input options (folderWith "[]") payloadExecution 0 ∧ options.output = .standard ∧
      Engine.missing.Tame ∧
      (∃ bytes, Utf8.encode (payloadExecution.render (options.drawList payloadExecution)) = .ok bytes) ∧
      (outcomeOfRun .missing input options (folderWith "[]")).stdout =
        payloadExecution.render (options.drawList payloadExecution) ∧
      (outcomeOfRun .missing input options (folderWith "[]")).exitCode ≠ 0 := by
  have hdraws : Draws (Path.ofText "[]") { isNamed := false, format := some "svg" } (folderWith "[]")
      payloadExecution 0 := draws_payloadExecution (by cbv) rfl rfl rfl
  have hengine : Engine.missing.Tame := trivial
  obtain ⟨bytes, hbytes⟩ : ∃ bytes, Utf8.encode (payloadExecution.render defaultDraw) = .ok bytes :=
    ⟨_, by cbv⟩
  obtain ⟨hstdout, -, hexit⟩ := outcome_standard hdraws hengine hbytes rfl
  refine ⟨Path.ofText "[]", { isNamed := false, format := some "svg" }, by cbv, hdraws, rfl, hengine,
    ⟨bytes, hbytes⟩, hstdout, ?_⟩
  rw [hexit ⟨_, _, rfl⟩ rfl]
  decide

end CommandLine

end LitmusGraph
