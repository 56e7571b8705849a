import LitmusGraph.Proofs.CommandLine.Image
import LitmusGraph.Proofs.Options.Paths

/-!
# What the layout engine is handed

The layout engine is called once at most, behind a delivery that is complete, with the drawing that
was delivered. The image has the name of the file for the drawing, or else that of the payload file
and the index of the execution, and it goes to the folder for images unless that is missing and cannot
be made.

Results:
* `slash_not_mem_nameOfImage`: the name of an image is a plain name.
* `deliver_eq_ok_iff`: a delivery that ends well is one that has delivered all.
* `exists_after_deliver`: a run that draws is the delivery, and the image in its wake.
* `calls_cases`: the calls of a run.
* `engine_is_handed_what_is_delivered`: the calls of the program.
* `unnamed_input_not_handed_over`: the one delivery without a call.
-/

namespace LitmusGraph

namespace CommandLine

/-! ## The name of an image -/

/-- The name of an image: that of the file for the drawing, or else that of the payload file with the
index of the execution. -/
def nameOfImage (input : Path) (options : Options) (k : Nat) : Text :=
  match options.output with
  | .file path => path.stem
  | .standard | .nowhere => input.stem ++ "_" ++ Text.ofNat k

section Name

variable {input : Path} {options : Options}

theorem imageBase_of_named (h : options.output = .standard → options.isNamed = true)
    (hsome : options.output ≠ .nowhere) (input : Path) (k : Nat) :
    imageBase input options k = .ok (nameOfImage input options k) := by
  unfold imageBase nameOfImage
  cases houtput : options.output with
  | file path => rfl
  | nowhere => exact absurd houtput hsome
  | standard => exact if_pos (h houtput)

/-- **The name of an image** is a plain name. -/
theorem slash_not_mem_nameOfImage (hinput : input.IsRead) (hoptions : options.ReadsPath) (k : Nat) :
    ('/' : CodePoint) ∉ nameOfImage input options k := by
  have hnumber : ('/' : CodePoint) ∉ Text.ofNat k := fun hmem =>
    nomatch Text.isDigit_of_mem_ofNat hmem
  have hunderscore : ('/' : CodePoint) ∉ (("_" : Text)) := by decide
  unfold nameOfImage
  cases houtput : options.output with
  | file path => exact (hoptions path houtput).slash_not_mem_stem
  | standard | nowhere =>
    simp only [List.mem_append, not_or]
    exact ⟨⟨hinput.slash_not_mem_stem, hunderscore⟩, hnumber⟩

end Name

/-! ## Complete deliveries -/

/-- A drawing is delivered in full: it is all there is on the standard output, or its file holds it. -/
inductive Delivered (dot stdout : Text) (files : FileTree) : Destination → Prop where
  /-- The standard output is the drawing. -/
  | shown (shows : stdout = dot) : Delivered dot stdout files .standard
  /-- The file for the drawing holds it. -/
  | filed {path : Path} {bytes : Bytes} (encodes : Utf8.encode dot = .ok bytes)
    (reads : files.read path.toText = .ok bytes) : Delivered dot stdout files (.file path)

/-- What is delivered stays so as long as no file changes. -/
theorem Delivered.of_forall_keeps {dot stdout : Text} {files after : FileTree} {output : Destination}
    (h : Delivered dot stdout files output) (hkeeps : ∀ place, files.Keeps after place) :
    Delivered dot stdout after output := by
  cases h with
  | shown shows => exact .shown shows
  | filed encodes reads => exact .filed encodes (FileTree.read_of_forall_keeps hkeeps reads)

/-- **A delivery that ends well** is one that has delivered all. -/
theorem deliver_eq_ok_iff {dot : Text} {output : Destination} {w after : World}
    {result : Except Failure Unit} (hdot : dot ≠ []) (hstdout : w.stdout = [])
    (h : (deliver dot output).execute w = (result, after)) :
    result = .ok () ↔ Delivered dot after.stdout after.files output := by
  cases output with
  | nowhere =>
    obtain ⟨rfl, rfl⟩ := Prod.mk.inj h
    exact iff_of_false nofun nofun
  | standard =>
    by_cases hencodable : Utf8.Encodable dot
    · rw [execute_deliver_standard hencodable.encode_eq] at h
      obtain ⟨rfl, rfl⟩ := Prod.mk.inj h
      exact iff_of_true rfl (.shown (by rw [hstdout, List.nil_append]))
    · obtain ⟨e, he⟩ := execute_deliver_standard_of_alien hencodable w
      rw [he] at h
      obtain ⟨rfl, rfl⟩ := Prod.mk.inj h
      refine iff_of_false nofun fun hdelivered => ?_
      cases hdelivered with
      | shown hshows => exact hdot (hshows.symm.trans hstdout)
  | file path =>
    cases hwrite : w.files.write path.toText [] with
    | error e =>
      rw [execute_deliver_of_unwritable hwrite] at h
      obtain ⟨rfl, rfl⟩ := Prod.mk.inj h
      refine iff_of_false nofun fun hdelivered => ?_
      cases hdelivered with
      | filed _ hreads =>
        obtain ⟨emptied, hwrite'⟩ := FileTree.exists_write_of_read hreads []
        exact nomatch hwrite.symm.trans hwrite'
    | ok emptied =>
    by_cases hencodable : Utf8.Encodable dot
    · obtain ⟨delivered, place, hdeliver, -, hleads, hat, -⟩ :=
        execute_deliver_file hencodable.encode_eq hwrite
      rw [hdeliver] at h
      obtain ⟨rfl, rfl⟩ := Prod.mk.inj h
      exact iff_of_true rfl
        (.filed hencodable.encode_eq (FileTree.read_eq_ok_iff.mpr ⟨place, hleads, hat⟩))
    · obtain ⟨e, he⟩ := execute_deliver_file_of_alien hencodable hwrite
      rw [he] at h
      obtain ⟨rfl, rfl⟩ := Prod.mk.inj h
      refine iff_of_false nofun fun hdelivered => ?_
      cases hdelivered with
      | filed hencodes _ =>
        obtain ⟨e', he'⟩ := Utf8.exists_encode_eq_error hencodable
        exact nomatch he'.symm.trans hencodes

/-! ## The calls of a run -/

/-- There is an image to be made: one is wanted, an engine is installed, and the image has a name,
which it may lack if there is no file for the drawing. -/
structure CanHandOver (engine : Engine) (options : Options) : Prop where
  wants : options.WantsImage
  installed : ∃ answer, engine = .installed answer
  named : options.output = .standard → options.isNamed = true

/-- A run hands its drawing over: there is an image to be made, of the execution `x` of index `k` that
the run draws, and the drawing is delivered in full. -/
structure HandsOver (engine : Engine) (input : Path) (options : Options) (files : FileTree)
    (x : Execution) (k : Nat) (o : Outcome) : Prop extends CanHandOver engine options where
  draws : Draws input options files x k
  delivered : Delivered (x.render (options.drawList x)) o.stdout o.files options.output

section Run

variable {input : Path} {options : Options} {files : FileTree} {x : Execution} {k : Nat}

/-- A run that draws nothing calls no engine. -/
theorem calls_of_not_draws (h : ∀ x k, ¬ Draws input options files x k) (engine : Engine) :
    (outcomeOfRun engine input options files).calls = [] := by
  have horder : Run.Order fun w after : World => after.calls = w.calls := .ofView World.calls
  have hprint := leadsTo_print horder fun _ _ => rfl
  have hcalls : ((plan input options files).perform engine input options).LeadsTo
      fun w after => after.calls = w.calls := by
    cases hplan : plan input options files with
    | fail failure => exact .throw horder failure
    | stop => exact .pure horder ()
    | list xs index =>
      exact .forM horder (fun line => .bind horder (hprint line) fun _ => hprint "\n") _
    | draw x k => exact absurd (plan_eq_draw_iff.mp hplan) (h x k)
  obtain ⟨log, hrun⟩ := execute_run_eq_perform engine input options { files }
  rw [outcomeOfRun_eq_outcomeFrom, (outcomeFrom_world _ _).2.2, hrun]
  exact hcalls _

theorem render_ne_nil (x : Execution) (draw : List Text) : x.render draw ≠ [] := by
  unfold Execution.render Execution.drawing
  simp only [List.cons_append, List.flatMap_cons]
  exact List.cons_ne_nil _ _

/-- **A run that draws is the delivery, and the image in its wake**: what the delivery leaves behind
does not depend on the engine. -/
theorem exists_after_deliver (h : Draws input options files x k) :
    ∃ (result : Except Failure Unit) (w : World), w.calls = [] ∧
      (result = .ok () ↔
        Delivered (x.render (options.drawList x)) w.stdout w.files options.output) ∧
      ∀ engine, outcomeOfRun engine input options files =
        match result with
        | .error failure => outcomeFrom options (.error failure, w)
        | .ok () => outcomeFrom options
          ((makeImage engine (x.render (options.drawList x)) input options k).execute w) := by
  obtain ⟨log, hto⟩ := execute_runToImage (w := { files }) h
  obtain ⟨result, w, hdeliver⟩ : ∃ result w,
      (deliver (x.render (options.drawList x)) options.output).execute { files, log } = (result, w) :=
    ⟨_, _, rfl⟩
  have hcalls := leadsTo_deliver (.ofView World.calls) (fun _ _ => rfl) (fun _ _ => rfl)
    (fun _ _ => rfl) (x.render (options.drawList x)) options.output { files, log }
  rw [hdeliver] at hcalls
  refine ⟨result, w, hcalls, deliver_eq_ok_iff (render_ne_nil x _) rfl hdeliver, fun engine => ?_⟩
  rw [outcomeOfRun_eq_outcomeFrom, run_eq_bind_imageOf]
  cases result with
  | error failure =>
    rw [Run.execute_bind_of_error hdeliver] at hto
    rw [Run.execute_bind_of_error hto]
  | ok u =>
    rw [Run.execute_bind_of_ok hdeliver] at hto
    rw [Run.execute_bind_of_ok hto]
    rfl

/-- An image leaves the standard output and all files as they are. -/
theorem makeImage_spares (engine : Engine) (dot : Text) (input : Path) (options : Options) (k : Nat)
    (w : World) :
    let after := ((makeImage engine dot input options k).execute w).2
    after.stdout = w.stdout ∧ ∀ place, w.files.Keeps after.files place := by
  obtain ⟨result, hnone⟩ | ⟨drawn, base, format, -, hexport⟩ :=
    imageOf_cases input options (some (dot, k))
  · have himage : (makeImage engine dot input options k).execute w = (result, w) := hnone engine w
    rw [himage]
    exact ⟨rfl, fun place => .refl _ place⟩
  · have himage : (makeImage engine dot input options k).execute w = _ := hexport engine w
    obtain ⟨hstdout, hkeeps, -⟩ := exportImage_spares engine drawn.1 base format w
    rw [himage]
    exact ⟨hstdout, hkeeps⟩

/-- Without an engine, an image leaves all files and folders as they are. -/
theorem files_makeImage_missing (dot : Text) (w : World) :
    ((makeImage .missing dot input options k).execute w).2.files = w.files := by
  obtain ⟨result, hnone⟩ | ⟨drawn, base, format, -, hexport⟩ :=
    imageOf_cases input options (some (dot, k))
  · exact congrArg (·.2.files) (hnone .missing w)
  · refine (congrArg (·.2.files) (hexport .missing w)).trans ?_
    rw [execute_exportImage_missing]
    rfl

/-- **The calls for an image**: one if there is an image to be made, and otherwise none. -/
theorem calls_makeImage (engine : Engine) (dot : Text) (input : Path) (k : Nat) (w : World)
    (hsome : options.output ≠ .nowhere) :
    let after := ((makeImage engine dot input options k).execute w).2
    (¬ CanHandOver engine options ∧ after.calls = w.calls) ∨
      CanHandOver engine options ∧ ∃ format, options.format = some format ∧
        after.calls = w.calls ++
          [{ path := placeOfImage w.files defaultFolder (nameOfImage input options k), format, dot }] := by
  intro after
  by_cases hwants : options.WantsImage
  swap
  · refine .inl ⟨fun h => hwants h.wants, ?_⟩
    simp only [after, makeImage_of_unwanted hwants, Run.execute_pure]
  by_cases hnamed : options.output = .standard → options.isNamed = true
  swap
  · refine .inl ⟨fun h => hnamed h.named, ?_⟩
    rw [Classical.not_imp, Bool.not_eq_true] at hnamed
    simp only [after, execute_makeImage_of_unnamed hwants hnamed.1 hnamed.2]
  obtain ⟨c, rest, hformat⟩ := hwants
  have himage := execute_makeImage_of_base hformat (imageBase_of_named hnamed hsome input k) engine
    dot w
  cases engine with
  | missing =>
    refine .inl ⟨fun h => (nomatch h.installed), ?_⟩
    simp only [after, himage, execute_exportImage_missing, endOf]
  | installed answer =>
    refine .inr ⟨⟨⟨c, rest, hformat⟩, ⟨answer, rfl⟩, hnamed⟩, c :: rest, hformat, ?_⟩
    obtain ⟨path, files, lines, hprepared⟩ := exists_prepared (nameOfImage input options k) w
    simp only [after, himage, endOf, hprepared.execute_exportImage, calls_answered,
      hprepared.path_eq]

theorem Draws.inj {x' : Execution} {k' : Nat} (h : Draws input options files x k)
    (h' : Draws input options files x' k') : x = x' ∧ k = k' :=
  Plan.draw.inj ((plan_eq_draw_iff.mpr h).symm.trans (plan_eq_draw_iff.mpr h'))

/-- **The calls of a run**: one if it hands its drawing over, and otherwise none. -/
theorem calls_cases (engine : Engine) (input : Path) (options : Options) (files : FileTree) :
    let o := outcomeOfRun engine input options files
    (o.calls = [] ∧ ∀ x k, ¬ HandsOver engine input options files x k o) ∨
      ∃ x k, HandsOver engine input options files x k o ∧ ∃ format, options.format = some format ∧
        o.calls = [{ path := placeOfImage (outcomeOfRun .missing input options files).files
                       defaultFolder (nameOfImage input options k)
                     format
                     dot := x.render (options.drawList x) }] := by
  intro o
  by_cases hdraws : ∃ x k, Draws input options files x k
  swap
  · have hnot : ∀ x k, ¬ Draws input options files x k := fun x k h => hdraws ⟨x, k, h⟩
    exact .inl ⟨calls_of_not_draws hnot engine, fun x k h => hnot x k h.draws⟩
  obtain ⟨x, k, hdraws⟩ := hdraws
  obtain ⟨result, w, hcalls, hdelivered, houtcome⟩ := exists_after_deliver hdraws
  cases result with
  | error failure =>
    have ho : o = outcomeFrom options (.error failure, w) := houtcome engine
    refine .inl ⟨by rw [ho]; exact hcalls, fun x' k' h => ?_⟩
    obtain ⟨rfl, rfl⟩ := hdraws.inj h.draws
    have hwhole := h.delivered
    rw [ho] at hwhole
    exact nomatch hdelivered.mpr hwhole
  | ok u =>
    have hwhole := hdelivered.mp rfl
    have hsome : options.output ≠ .nowhere := by
      intro hnowhere
      rw [hnowhere] at hwhole
      exact nomatch hwhole
    obtain ⟨hstdout, hkeeps⟩ :=
      makeImage_spares engine (x.render (options.drawList x)) input options k w
    have ho : o = outcomeFrom options ((makeImage engine (x.render (options.drawList x)) input
      options k).execute w) := houtcome engine
    obtain ⟨hout, hfiles, hocalls⟩ := outcomeFrom_world options
      ((makeImage engine (x.render (options.drawList x)) input options k).execute w)
    rw [← ho] at hout hfiles hocalls
    have hodelivered : Delivered (x.render (options.drawList x)) o.stdout o.files options.output := by
      rw [hout, hfiles, hstdout]
      exact hwhole.of_forall_keeps hkeeps
    have hmissing : (outcomeOfRun .missing input options files).files = w.files := by
      rw [houtcome .missing]
      exact (outcomeFrom_world _ _).2.1.trans (files_makeImage_missing _ w)
    obtain ⟨hnot, hnone⟩ | ⟨hcan, format, hformat, hcall⟩ :=
      calls_makeImage engine (x.render (options.drawList x)) input k w hsome
    · refine .inl ⟨hocalls.trans (hnone.trans hcalls), fun x' k' h => ?_⟩
      exact hnot h.toCanHandOver
    · refine .inr ⟨x, k, ⟨hcan, hdraws, hodelivered⟩, format, hformat, ?_⟩
      rw [hocalls, hcall, hcalls, hmissing, List.nil_append]

end Run

/-! ## The calls of the program -/

/-- The program, called like this, asks the engine for an image of the execution `x` of index `k`. -/
structure Asks (engine : Engine) (arguments : List Text) (files : FileTree) (input : Path)
    (options : Options) (x : Execution) (k : Nat) (call : LayoutCall) : Prop where
  parses : Options.parse arguments = .ok (.run input options)
  draws : Draws input options files x k
  calls : call ∈ (outcome engine arguments files).calls

/-- What the call hands over by which an image of the execution `x` of index `k` is asked for: `o` is
the outcome, and `delivered` are the files once the drawing is delivered. -/
structure HandedOver (input : Path) (options : Options) (x : Execution) (k : Nat)
    (delivered : FileTree) (o : Outcome) (call : LayoutCall) : Prop where
  /-- The drawing is that of the execution. -/
  dot : call.dot = x.render (options.drawList x)
  /-- That drawing has been delivered, to the last code point. -/
  delivers : Delivered call.dot o.stdout o.files options.output
  /-- The format is the one that the options ask for. -/
  format : options.format = some call.format
  /-- The image has a plain name. -/
  plain : ('/' : CodePoint) ∉ nameOfImage input options k
  /-- The image goes into its folder. -/
  inFolder : delivered.reaches defaultFolder = true ∨
      (delivered.makeFolders defaultFolder).2 = .ok () →
    call.path = "execution_graphs/" ++ nameOfImage input options k
  /-- Without that folder it stays in the working folder. -/
  beside : delivered.reaches defaultFolder = false →
    (∃ e, (delivered.makeFolders defaultFolder).2 = .error e) →
    call.path = nameOfImage input options k

section Program

variable {engine : Engine} {arguments : List Text} {files : FileTree} {input : Path}
  {options : Options} {x : Execution} {k : Nat} {call : LayoutCall}

theorem outcome_of_parse (h : Options.parse arguments = .ok (.run input options)) (engine : Engine)
    (files : FileTree) :
    outcome engine arguments files = outcomeOfRun engine input options files := by
  unfold outcome
  rw [h]

/-- A command line that asks for no run calls no engine. -/
theorem calls_of_no_run (h : ∀ input options, Options.parse arguments ≠ .ok (.run input options))
    (engine : Engine) (files : FileTree) : (outcome engine arguments files).calls = [] := by
  unfold outcome
  split
  · rfl
  · rfl
  · next hparse => exact absurd hparse (h _ _)

/-- The one call that there can be. -/
theorem Asks.call_eq (h : Asks engine arguments files input options x k call) :
    HandsOver engine input options files x k (outcome engine arguments files) ∧
      ∃ format, options.format = some format ∧
        call = { path := placeOfImage (outcome .missing arguments files).files defaultFolder
                   (nameOfImage input options k)
                 format
                 dot := x.render (options.drawList x) } := by
  have hcall := h.calls
  rw [outcome_of_parse h.parses] at hcall
  rw [outcome_of_parse h.parses, outcome_of_parse h.parses]
  obtain ⟨hnone, -⟩ | ⟨x', k', hhands, format, hformat, hone⟩ :=
    calls_cases engine input options files
  · rw [hnone] at hcall
    exact nomatch hcall
  · obtain ⟨rfl, rfl⟩ := h.draws.inj hhands.draws
    rw [hone, List.mem_singleton] at hcall
    exact ⟨hhands, format, hformat, hcall⟩

/-- The name of an image that is asked for is a plain one. -/
theorem Asks.slash_not_mem (h : Asks engine arguments files input options x k call) :
    ('/' : CodePoint) ∉ nameOfImage input options k := by
  obtain ⟨hinput, hoptions⟩ := Options.readsPaths_of_parse h.parses
  exact slash_not_mem_nameOfImage hinput hoptions k

theorem Asks.handedOver (h : Asks engine arguments files input options x k call) :
    HandedOver input options x k (outcome .missing arguments files).files
      (outcome engine arguments files) call := by
  obtain ⟨hhands, format, hformat, rfl⟩ := h.call_eq
  have hplain := h.slash_not_mem
  refine ⟨rfl, hhands.delivered, hformat, hplain, ?_, ?_⟩ <;>
    obtain ⟨hfolder, hplace⟩ | ⟨⟨hmissing, e, hfails⟩, hplace⟩ :=
      placeOfImage_cases hplain (outcome .missing arguments files).files
  · exact fun _ => hplace
  · rintro (hreach | hmade)
    · exact nomatch hmissing.symm.trans hreach
    · exact nomatch hfails.symm.trans hmade
  · rintro hmissing ⟨e, hfails⟩
    obtain hreach | hmade := hfolder
    · exact nomatch hmissing.symm.trans hreach
    · exact nomatch hfails.symm.trans hmade
  · exact fun _ _ => hplace

/-- Without a file for the drawing, the path of an image tells the stem of the payload file and the
index of the execution. -/
theorem Asks.path_inj (h : Asks engine arguments files input options x k call) {engine' : Engine}
    {arguments' : List Text} {files' : FileTree} {input' : Path} {options' : Options}
    {x' : Execution} {k' : Nat} {call' : LayoutCall}
    (h' : Asks engine' arguments' files' input' options' x' k' call')
    (houtput : options.output = .standard) (houtput' : options'.output = .standard)
    (hpath : call.path = call'.path) : input.stem = input'.stem ∧ k = k' := by
  obtain ⟨-, format, -, rfl⟩ := h.call_eq
  obtain ⟨-, format', -, rfl⟩ := h'.call_eq
  have hname := placeOfImage_inj h.slash_not_mem h'.slash_not_mem hpath
  unfold nameOfImage at hname
  rw [houtput, houtput'] at hname
  exact Text.append_underscore_ofNat_inj hname

/-- The program calls the engine once if a run hands its drawing over, and otherwise not at all. -/
theorem outcome_calls_cases (engine : Engine) (arguments : List Text) (files : FileTree) :
    let o := outcome engine arguments files
    let hands := ∃ input options x k, Options.parse arguments = .ok (.run input options) ∧
      HandsOver engine input options files x k o
    (¬ hands ∧ o.calls = []) ∨ (hands ∧ ∃ call, o.calls = [call]) := by
  intro o hands
  by_cases hrun : ∃ input options, Options.parse arguments = .ok (.run input options)
  swap
  · refine .inl ⟨?_, calls_of_no_run (fun i p h => hrun ⟨i, p, h⟩) engine files⟩
    rintro ⟨input, options, -, -, hparse, -⟩
    exact hrun ⟨input, options, hparse⟩
  obtain ⟨input, options, hparse⟩ := hrun
  have ho : o = outcomeOfRun engine input options files := outcome_of_parse hparse engine files
  obtain ⟨hnone, hnot⟩ | ⟨x, k, hhands, format, -, hone⟩ := calls_cases engine input options files
  · rw [← ho] at hnone hnot
    refine .inl ⟨?_, hnone⟩
    rintro ⟨input', options', x, k, hparse', hhands⟩
    cases hparse.symm.trans hparse'
    exact hnot x k hhands
  · rw [← ho] at hhands hone
    exact .inr ⟨⟨input, options, x, k, hparse, hhands⟩, _, hone⟩

end Program

/-- **The engine is handed what is delivered.** The program calls the engine once at most, and it does
so exactly if a run draws, an image is wanted and has a name, the drawing is delivered in full, and an
engine is installed. The call holds that drawing, the format given, and a plain name in the folder for
images, or that name alone if the folder is missing and cannot be made. Without a file for the
drawing, the paths of two images are different if the payload files have different stems or the
executions have different indices. -/
theorem engine_is_handed_what_is_delivered (engine : Engine) (arguments : List Text)
    (files : FileTree) :
    let o := outcome engine arguments files
    o.calls.length ≤ 1 ∧
      (o.calls ≠ [] ↔ ∃ input options x k, Options.parse arguments = .ok (.run input options) ∧
        HandsOver engine input options files x k o) ∧
      (∀ input options x k call, Asks engine arguments files input options x k call →
        HandedOver input options x k (outcome .missing arguments files).files o call) ∧
      ∀ engine' arguments' files' input options x k call input' options' x' k' call',
        Asks engine arguments files input options x k call →
        Asks engine' arguments' files' input' options' x' k' call' →
        options.output = .standard → options'.output = .standard → call.path = call'.path →
        input.stem = input'.stem ∧ k = k' := by
  intro o
  have hmost_iff : o.calls.length ≤ 1 ∧ (o.calls ≠ [] ↔ ∃ input options x k,
      Options.parse arguments = .ok (.run input options) ∧
        HandsOver engine input options files x k o) := by
    obtain ⟨hnot, hnone⟩ | ⟨hhands, call, hone⟩ := outcome_calls_cases engine arguments files
    · exact ⟨hnone ▸ Nat.zero_le 1, iff_of_false (fun hsome => hsome hnone) hnot⟩
    · exact ⟨hone ▸ Nat.le_refl 1, iff_of_true (hone ▸ List.cons_ne_nil _ _) hhands⟩
  exact ⟨hmost_iff.1, hmost_iff.2, fun _ _ _ _ _ h => h.handedOver,
    fun _ _ _ _ _ _ _ _ _ _ _ _ _ h h' houtput houtput' => h.path_inj h' houtput houtput'⟩

/-- Options that ask for a drawing in a file, and for an image of it. -/
def imageOptions : Options where
  format := some "svg"
  output := .file (Path.ofText "o.dot")

/-- **A drawing is handed over** that goes to a file, and drawings that go to the standard output go by
their payload files, however these are written. -/
theorem drawings_are_handed_over :
    let o := outcome makesImages imageArguments (folderWith "e.json")
    o.calls = [imageCall] ∧
      HandsOver makesImages (Path.ofText "e.json") imageOptions (folderWith "e.json") payloadExecution
        0 o ∧
      HandedOver (Path.ofText "e.json") imageOptions payloadExecution 0
        (outcome .missing imageArguments (folderWith "e.json")).files o imageCall ∧
      (Path.ofText "e.json").stem = (Path.ofText "./e.json").stem := by
  have hparse : Options.parse imageArguments = .ok (.run (Path.ofText "e.json") imageOptions) := by
    cbv
  have hparse₁ : Options.parse ["-i", "e.json", "--format", "svg"] =
      .ok (.run (Path.ofText "e.json") { format := some "svg" }) := by
    cbv
  have hparse₂ : Options.parse ["-i", "./e.json", "--format", "png"] =
      .ok (.run (Path.ofText "./e.json") { format := some "png" }) := by
    cbv
  have hload : (Payload.load levels (folderWith "e.json") (Path.ofText "e.json").toText).2 =
      .ok [payloadExecution] := by
    cbv
  have hcalls : (outcome makesImages imageArguments (folderWith "e.json")).calls = [imageCall] := by
    decide +kernel
  have hcall₁ : { path := "execution_graphs/e_0", format := "svg", dot := imageCall.dot } ∈
      (outcome makesImages ["-i", "e.json", "--format", "svg"] (folderWith "e.json")).calls := by
    decide +kernel
  have hcall₂ : { path := "execution_graphs/e_0", format := "png", dot := imageCall.dot } ∈
      (outcome makesImages ["-i", "./e.json", "--format", "png"] (folderWith "e.json")).calls := by
    decide +kernel
  obtain ⟨-, hiff, hhanded, -⟩ :=
    engine_is_handed_what_is_delivered makesImages imageArguments (folderWith "e.json")
  obtain ⟨-, -, -, hpaths⟩ := engine_is_handed_what_is_delivered makesImages
    ["-i", "e.json", "--format", "svg"] (folderWith "e.json")
  have hdraws : Draws (Path.ofText "e.json") imageOptions (folderWith "e.json") payloadExecution 0 :=
    draws_payloadExecution hload rfl rfl rfl
  refine ⟨hcalls, ?_, ?_, ?_⟩
  · obtain ⟨input, options, x, k, hparse', hhands⟩ :=
      hiff.mp (hcalls ▸ List.cons_ne_nil imageCall [])
    cases hparse.symm.trans hparse'
    obtain ⟨rfl, rfl⟩ := hdraws.inj hhands.draws
    exact hhands
  · exact hhanded _ _ _ _ _ ⟨hparse, hdraws, hcalls ▸ List.mem_cons_self⟩
  · exact (hpaths _ _ _ _ _ _ _ _ _ _ _ _ _
      ⟨hparse₁, draws_payloadExecution hload rfl rfl rfl, hcall₁⟩
      ⟨hparse₂, draws_payloadExecution hload rfl rfl rfl, hcall₂⟩ rfl rfl rfl).1

/-- **A payload file without a name** keeps its drawing from being handed over: it is given by an end
mark, the drawing is delivered, and an engine is installed, but it is not called. -/
theorem unnamed_input_not_handed_over :
    ∃ input options, Options.parse ["-i=--", "--format", "svg"] = .ok (.run input options) ∧
      options.WantsImage ∧ Draws input options (folderWith "[]") payloadExecution 0 ∧
      Delivered (payloadExecution.render (options.drawList payloadExecution))
        (outcome makesImages ["-i=--", "--format", "svg"] (folderWith "[]")).stdout
        (outcome makesImages ["-i=--", "--format", "svg"] (folderWith "[]")).files options.output ∧
      (∃ answer, makesImages = .installed answer) ∧
      (outcome makesImages ["-i=--", "--format", "svg"] (folderWith "[]")).calls = [] := by
  refine ⟨Path.ofText "[]", { isNamed := false, format := some "svg" }, by cbv, ⟨_, _, rfl⟩,
    draws_payloadExecution (by cbv) rfl rfl rfl, .shown (by decide +kernel), ⟨_, rfl⟩, ?_⟩
  decide +kernel

end CommandLine

end LitmusGraph
