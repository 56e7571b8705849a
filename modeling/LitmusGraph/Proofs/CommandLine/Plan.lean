import LitmusGraph.Proofs.CommandLine.Delivery
import LitmusGraph.Proofs.Text.Reading
import LitmusGraph.Proofs.Text.Utf8

/-!
# What a run comes to

A run looks at everything that can be refused before it does anything that can be seen: it reads the
payload file and selects an execution, and all that is left then is a `Plan`. So a run is its plan,
carried out.

Results:
* `execute_run_eq_perform`: a run carries out its plan.
* `plan_eq_list_iff`, `plan_eq_draw_iff`: when a run lists, and when it draws.
* `execute_printLines`, `execute_printLines_of_alien`: a list is printed up to the first line that
  cannot be encoded.
* `execute_deliver_file_of_alien`, `execute_deliver_of_unwritable`: how a delivery fails.
* `outcome_of_perform`: the outcome of a run is that of its plan.
-/

namespace LitmusGraph

namespace CommandLine

/-! ## Plans -/

/-- What is left for a run to do once the payload file is read and an execution is selected. -/
inductive Plan where
  /-- The run fails. -/
  | fail (failure : Failure)
  /-- There is nothing to do. -/
  | stop
  /-- The executions are listed, the one of an index as the current one. -/
  | list (xs : List Execution) (index : Nat)
  /-- An execution is drawn, which has an index. -/
  | draw (x : Execution) (index : Nat)

/-- The levels of nesting that are left where a run with these options decodes the payload file: one
less if it validates, since that is one call more. -/
def levelsFor (options : Options) : Nat := if options.validateOnly then levels - 1 else levels

theorem levelsFor_of_not_validateOnly {options : Options} (h : options.validateOnly = false) :
    levelsFor options = levels :=
  if_neg (Bool.eq_false_iff.mp h)

/-- What is left to do with the executions that were read. -/
def planFor (options : Options) (xs : List Execution) : Plan :=
  if options.validateOnly then .stop
  else if xs = [] then .fail (.refused .noExecutions)
  else
    match options.execution with
    | none => .fail .noIndex
    | some i =>
      if h : 0 ≤ i ∧ i < xs.length then
        if options.list then .list xs i.toNat
        else .draw (xs.get ⟨i.toNat, (Int.toNat_lt h.1).mpr h.2⟩) i.toNat
      else .fail (.refused (.ofIndex i xs.length))

/-- What is left to do once the payload file is read. -/
def plan (input : Path) (options : Options) (files : FileTree) : Plan :=
  match (Payload.load (levelsFor options) files input.toText).2 with
  | .error e => .fail (.unreadable e)
  | .ok xs => planFor options xs

/-- The lines of a list of executions. -/
def listLines (xs : List Execution) (index : Nat) : List Text :=
  xs.zipIdx.map fun (x, i) => listLine index i x

/-- Prints lines one after the other. -/
def printLines (lines : List Text) : Run Failure PUnit :=
  lines.forM fun line => do
    print line
    print "\n"

/-- What is left to do, done. -/
def Plan.perform (engine : Engine) (input : Path) (options : Options) : Plan → Run Failure Unit
  | fail failure => throw failure
  | stop => return ()
  | list xs index => printLines (listLines xs index)
  | draw x index => do
    deliver (x.render (options.drawList x)) options.output
    makeImage engine (x.render (options.drawList x)) input options index

/-! ## A run carries out its plan -/

section Run

variable {engine : Engine} {input : Path} {options : Options} {w : World}

/-- A file that cannot be read is not opened. -/
theorem execute_openViewer_of_error {e : Payload.ReadError}
    (hload : (Payload.load levels w.files input.toText).2 = .error e) :
    ∃ log, (openViewer input).execute w = (.error (.unreadable e), { w with log }) := by
  obtain ⟨log, hload⟩ : ∃ log, Payload.load levels w.files input.toText = (log, .error e) :=
    ⟨_, Prod.ext rfl hload⟩
  unfold openViewer
  rw [Run.execute_bind_of_ok (Run.execute_files w), hload]
  exact ⟨_, Run.execute_bind_of_error (execute_told Failure.unreadable log (.error e) w)⟩

/-- There is no viewer of no executions. -/
theorem execute_openViewer_of_nil (hload : (Payload.load levels w.files input.toText).2 = .ok []) :
    ∃ log, (openViewer input).execute w = (.error (.refused .noExecutions), { w with log }) := by
  obtain ⟨log, hload⟩ : ∃ log, Payload.load levels w.files input.toText = (log, .ok []) :=
    ⟨_, Prod.ext rfl hload⟩
  unfold openViewer
  rw [Run.execute_bind_of_ok (Run.execute_files w), hload,
    Run.execute_bind_of_ok (execute_told Failure.unreadable log (.ok []) w)]
  have hnone : Viewer.ofExecutions [] = .error .noExecutions := rfl
  rw [hnone]
  exact ⟨_, Run.execute_bind_of_error (Run.execute_ofExcept Failure.refused _ _)⟩

/-- An execution that does not exist is not selected. -/
theorem execute_select_of_outOfRange {viewer : Viewer} {i : Int} (h : ¬ (0 ≤ i ∧ i < viewer.size)) :
    (select viewer (some i)).execute w =
      (.error (.refused (.ofIndex i viewer.size)), w) := by
  have hselect : viewer.select i = .error (.ofIndex i viewer.size) := dif_neg h
  unfold select
  simp only [hselect]
  exact Run.execute_bind_of_error (Run.execute_ofExcept Failure.refused _ w)

/-- A run that does not validate goes on with the viewer of an execution selected. -/
theorem run_eq_bind (engine : Engine) (input : Path) (h : options.validateOnly = false) :
    run engine input options = openViewer input >>= fun viewer =>
      select viewer options.execution >>= fun viewer =>
        if options.list then printList viewer else draw engine input options viewer := by
  unfold run
  rw [if_neg (Bool.eq_false_iff.mp h)]

/-- A run that validates does no more than read, with one level of nesting less. -/
theorem execute_validate (input : Path) (w : World) :
    ∃ log, (validate input).execute w =
      (((Payload.load (levels - 1) w.files input.toText).2.mapError Failure.unreadable).map fun _ => (),
        { w with log }) := by
  have hresult : (Payload.validate levels w.files input.toText).2 =
      (Payload.load (levels - 1) w.files input.toText).2.map fun _ => () := by
    unfold Payload.validate
    rcases Payload.load (levels - 1) w.files input.toText with ⟨log, e | xs⟩ <;> rfl
  obtain ⟨log, hvalidate⟩ : ∃ log, Payload.validate levels w.files input.toText =
      (log, (Payload.load (levels - 1) w.files input.toText).2.map fun _ => ()) :=
    ⟨_, Prod.ext rfl hresult⟩
  unfold validate
  rw [Run.execute_bind_of_ok (Run.execute_files w), hvalidate]
  cases (Payload.load (levels - 1) w.files input.toText).2 with
  | error e =>
    exact ⟨_, Run.execute_bind_of_error (execute_told Failure.unreadable log (.error e) w)⟩
  | ok xs =>
    have htold : (told Failure.unreadable (log, Except.map (fun _ => ()) (.ok xs))).execute w =
        (.ok (), { w with log := w.log ++ log }) := execute_told Failure.unreadable log (.ok ()) w
    rw [Run.execute_bind_of_ok htold]
    exact ⟨_, rfl⟩

/-- The lines of the list are printed. -/
theorem printList_eq_printLines (viewer : Viewer) :
    printList viewer = printLines (listLines viewer.executions viewer.index) := by
  unfold printList printLines listLines
  simp only [List.forM_eq_forM, List.forM_map]

/-- Executions that are read and not to be drawn: a run that does not validate carries out its plan. -/
theorem execute_run_of_load {xs : List Execution} (hvalidate : options.validateOnly = false)
    (hload : (Payload.load levels w.files input.toText).2 = .ok xs) :
    ∃ log, (run engine input options).execute w =
      ((planFor options xs).perform engine input options).execute { w with log } := by
  unfold planFor
  simp only [hvalidate, Bool.false_eq_true, if_false]
  by_cases hxs : xs = []
  · subst hxs
    obtain ⟨log, hopen⟩ := execute_openViewer_of_nil hload
    rw [run_eq_bind engine input hvalidate]
    exact ⟨log, Run.execute_bind_of_error hopen⟩
  rw [if_neg hxs]
  obtain ⟨start, hstart, hexecutions, -, -⟩ := Viewer.exists_ofExecutions hxs
  have hopen := execute_openViewer (Prod.ext rfl hload) hstart
  have hsize : start.size = xs.length := congrArg List.length hexecutions
  cases hexecution : options.execution with
  | none =>
    rw [run_eq_bind engine input hvalidate, Run.execute_bind_of_ok hopen, hexecution]
    exact ⟨_, Run.execute_bind_of_error (Run.execute_throw _ _)⟩
  | some i =>
  by_cases hi : 0 ≤ i ∧ i < xs.length
  swap
  · simp only [dif_neg hi]
    rw [run_eq_bind engine input hvalidate, Run.execute_bind_of_ok hopen, hexecution]
    rw [← hsize] at hi ⊢
    exact ⟨_, Run.execute_bind_of_error (execute_select_of_outOfRange hi)⟩
  simp only [dif_pos hi]
  cases hlist : options.list with
  | false =>
    have hindex : options.execution = some (i.toNat : Int) := by
      rw [hexecution, Int.toNat_of_nonneg hi.1]
    exact execute_run engine
      ⟨hvalidate, hlist, hindex, xs, hload, List.getElem?_eq_getElem (by omega)⟩
  | true =>
    obtain ⟨viewer, hselect, hviewer, hindex, -⟩ :=
      Viewer.exists_select hi.1 (hsize ▸ hi.2 : i < start.size)
    rw [run_eq_bind engine input hvalidate, Run.execute_bind_of_ok hopen, hexecution,
      Run.execute_bind_of_ok (execute_select hselect _)]
    simp only [if_true, hlist, printList_eq_printLines]
    rw [hviewer, hexecutions, ← hindex, Int.toNat_natCast]
    exact ⟨_, rfl⟩

/-- **A run carries out its plan**: all it does before is to tell notices. -/
theorem execute_run_eq_perform (engine : Engine) (input : Path) (options : Options) (w : World) :
    ∃ log, (run engine input options).execute w =
      ((plan input options w.files).perform engine input options).execute { w with log } := by
  unfold plan
  cases hvalidate : options.validateOnly with
  | true =>
    obtain ⟨log, hrun⟩ := execute_validate input w
    refine ⟨log, ?_⟩
    unfold run planFor levelsFor
    simp only [hvalidate, if_true]
    rw [hrun]
    cases (Payload.load (levels - 1) w.files input.toText).2 with
    | error e => rfl
    | ok xs => rfl
  | false =>
    rw [levelsFor_of_not_validateOnly hvalidate]
    cases hload : (Payload.load levels w.files input.toText).2 with
    | error e =>
      obtain ⟨log, hopen⟩ := execute_openViewer_of_error hload
      rw [run_eq_bind engine input hvalidate]
      exact ⟨log, Run.execute_bind_of_error hopen⟩
    | ok xs => exact execute_run_of_load hvalidate hload

end Run

/-! ## When a run lists, and when it draws -/

/-- A run with these options lists the executions `xs`: it does not validate, and `k` is the index of
one of the executions `xs` that the payload file holds. -/
structure Lists (input : Path) (options : Options) (files : FileTree) (xs : List Execution)
    (k : Nat) : Prop where
  validateOnly : options.validateOnly = false
  list : options.list = true
  execution : options.execution = some (k : Int)
  loads : (Payload.load levels files input.toText).2 = .ok xs
  index_lt : k < xs.length

section Plans

variable {input : Path} {options : Options} {files : FileTree} {xs : List Execution}
  {x : Execution} {k : Nat}

/-- What is left for executions that one can be selected of. -/
theorem planFor_of_index (hvalidate : options.validateOnly = false)
    (hindex : options.execution = some (k : Int)) (hk : k < xs.length) :
    planFor options xs = if options.list then .list xs k else .draw xs[k] k := by
  have hne : xs ≠ [] := List.ne_nil_of_length_pos (by omega)
  have hrange : (0 : Int) ≤ k ∧ (k : Int) < xs.length := by omega
  unfold planFor
  simp only [hvalidate, Bool.false_eq_true, if_false, if_neg hne, hindex, dif_pos hrange]
  rfl

/-- A run that does not validate lists or draws if the index is that of an execution, and otherwise
fails for want of an execution. -/
theorem planFor_cases (xs : List Execution) (hvalidate : options.validateOnly = false) :
    (∃ failure, planFor options xs = .fail failure) ∨
      ∃ k : Nat, options.execution = some (k : Int) ∧ k < xs.length := by
  unfold planFor
  simp only [hvalidate, Bool.false_eq_true, if_false]
  by_cases hxs : xs = []
  · exact .inl ⟨_, if_pos hxs⟩
  rw [if_neg hxs]
  cases options.execution with
  | none => exact .inl ⟨_, rfl⟩
  | some i =>
    by_cases hi : 0 ≤ i ∧ i < xs.length
    · exact .inr ⟨i.toNat, congrArg some (Int.toNat_of_nonneg hi.1).symm, by omega⟩
    · exact .inl ⟨_, dif_neg hi⟩

theorem planFor_of_validateOnly (h : options.validateOnly = true) : planFor options xs = .stop :=
  if_pos h

theorem plan_of_load (h : (Payload.load (levelsFor options) files input.toText).2 = .ok xs) :
    plan input options files = planFor options xs := by
  unfold plan
  rw [h]

/-- What is left once a run that does not validate has read some executions. -/
theorem plan_of_load_of_not_validateOnly (hvalidate : options.validateOnly = false)
    (h : (Payload.load levels files input.toText).2 = .ok xs) :
    plan input options files = planFor options xs :=
  plan_of_load (by rwa [levelsFor_of_not_validateOnly hvalidate])

/-- What is left is to list or to draw only if an execution is selected. -/
theorem selects_of_plan (hstop : plan input options files ≠ .stop)
    (hfail : ∀ failure, plan input options files ≠ .fail failure) :
    options.validateOnly = false ∧ ∃ xs, (Payload.load levels files input.toText).2 = .ok xs ∧
      ∃ k : Nat, options.execution = some (k : Int) ∧ k < xs.length := by
  cases hload : (Payload.load (levelsFor options) files input.toText).2 with
  | error e =>
    unfold plan at hfail
    rw [hload] at hfail
    exact absurd rfl (hfail _)
  | ok xs =>
    rw [plan_of_load hload] at hstop hfail
    have hvalidate : options.validateOnly = false :=
      Bool.eq_false_iff.mpr fun h => hstop (planFor_of_validateOnly h)
    rw [levelsFor_of_not_validateOnly hvalidate] at hload
    obtain ⟨failure, hplan⟩ | hindex := planFor_cases xs hvalidate
    · exact absurd hplan (hfail failure)
    · exact ⟨hvalidate, xs, hload, hindex⟩

/-- **When a run lists.** -/
theorem plan_eq_list_iff :
    plan input options files = .list xs k ↔ Lists input options files xs k := by
  constructor
  · intro h
    obtain ⟨hvalidate, ys, hload, i, hindex, hi⟩ := selects_of_plan (by rw [h]; nofun) (by rw [h]; nofun)
    rw [plan_of_load_of_not_validateOnly hvalidate hload, planFor_of_index hvalidate hindex hi] at h
    cases hlist : options.list with
    | false =>
      rw [hlist] at h
      exact nomatch h
    | true =>
      rw [hlist] at h
      obtain ⟨rfl, rfl⟩ := Plan.list.inj h
      exact ⟨hvalidate, hlist, hindex, hload, hi⟩
  · rintro ⟨hvalidate, hlist, hindex, hload, hk⟩
    rw [plan_of_load_of_not_validateOnly hvalidate hload, planFor_of_index hvalidate hindex hk, hlist]
    rfl

/-- **When a run draws.** -/
theorem plan_eq_draw_iff :
    plan input options files = .draw x k ↔ Draws input options files x k := by
  constructor
  · intro h
    obtain ⟨hvalidate, ys, hload, i, hindex, hi⟩ := selects_of_plan (by rw [h]; nofun) (by rw [h]; nofun)
    rw [plan_of_load_of_not_validateOnly hvalidate hload, planFor_of_index hvalidate hindex hi] at h
    cases hlist : options.list with
    | true =>
      rw [hlist] at h
      exact nomatch h
    | false =>
      rw [hlist] at h
      obtain ⟨rfl, rfl⟩ := Plan.draw.inj h
      exact ⟨hvalidate, hlist, hindex, ys, hload, List.getElem?_eq_getElem hi⟩
  · rintro ⟨hvalidate, hlist, hindex, ys, hload, hx⟩
    obtain ⟨hk, rfl⟩ := List.getElem?_eq_some_iff.mp hx
    rw [plan_of_load_of_not_validateOnly hvalidate hload, planFor_of_index hvalidate hindex hk, hlist]
    rfl

end Plans

/-! ## Lines that are printed -/

/-- A text that can be encoded is printed. -/
theorem execute_print_of_encodable {t : Text} (h : Utf8.Encodable t) (w : World) :
    (print t).execute w = (.ok (), { w with stdout := w.stdout ++ t }) :=
  execute_print h.encode_eq w

/-- A text that cannot be encoded is not printed, not even in part. -/
theorem execute_print_of_alien {t : Text} (h : ¬ Utf8.Encodable t) (w : World) :
    ∃ e, (print t).execute w = (.error (.notEncodable e), w) := by
  obtain ⟨e, he⟩ := Utf8.exists_encode_eq_error h
  unfold print
  rw [he]
  exact ⟨e, Run.execute_bind_of_error (Run.execute_ofExcept Failure.notEncodable _ w)⟩

theorem printLines_cons (line : Text) (lines : List Text) :
    printLines (line :: lines) =
      print line >>= fun _ => print "\n" >>= fun _ => printLines lines := by
  unfold printLines
  rw [List.forM_eq_forM, List.forM_cons, bind_assoc]

/-- **Lines that can be encoded are printed**, and what comes behind them goes on from there. -/
theorem execute_printLines_append {lines : List Text} (h : ∀ line ∈ lines, Utf8.Encodable line)
    (rest : List Text) (w : World) :
    (printLines (lines ++ rest)).execute w =
      (printLines rest).execute { w with stdout := w.stdout ++ Text.unlines lines } := by
  induction lines generalizing w with
  | nil =>
    rw [List.nil_append, Text.unlines_nil, List.append_nil]
  | cons line lines ih =>
    obtain ⟨hline, hlines⟩ := List.forall_mem_cons.mp h
    have hfeed : Utf8.Encodable "\n" := by decide
    rw [List.cons_append, printLines_cons, Run.execute_bind_of_ok (execute_print_of_encodable hline w),
      Run.execute_bind_of_ok (execute_print_of_encodable hfeed _), ih hlines, Text.unlines_cons]
    simp only [List.append_assoc]
    rfl

/-- A list of lines that can be encoded is printed in full. -/
theorem execute_printLines {lines : List Text} (h : ∀ line ∈ lines, Utf8.Encodable line) (w : World) :
    (printLines lines).execute w =
      (.ok (), { w with stdout := w.stdout ++ Text.unlines lines }) := by
  have hprint := execute_printLines_append h [] w
  rw [List.append_nil] at hprint
  exact hprint

/-- **A line that cannot be encoded** ends the printing in front of it. -/
theorem execute_printLines_of_alien {lines : List Text} (h : ∀ line ∈ lines, Utf8.Encodable line)
    {alien : Text} (halien : ¬ Utf8.Encodable alien) (rest : List Text) (w : World) :
    ∃ e, (printLines (lines ++ alien :: rest)).execute w =
      (.error (.notEncodable e), { w with stdout := w.stdout ++ Text.unlines lines }) := by
  obtain ⟨e, he⟩ := execute_print_of_alien halien { w with stdout := w.stdout ++ Text.unlines lines }
  refine ⟨e, ?_⟩
  rw [execute_printLines_append h, printLines_cons]
  exact Run.execute_bind_of_error he

/-- Lines that cannot all be encoded have a first one that cannot. -/
theorem exists_first_alien {lines : List Text} (h : ¬ ∀ line ∈ lines, Utf8.Encodable line) :
    ∃ front alien rest, lines = front ++ alien :: rest ∧ (∀ line ∈ front, Utf8.Encodable line) ∧
      ¬ Utf8.Encodable alien := by
  induction lines with
  | nil => exact absurd (List.forall_mem_nil _) h
  | cons line lines ih =>
    by_cases hline : Utf8.Encodable line
    · obtain ⟨front, alien, rest, rfl, hfront, halien⟩ :=
        ih fun hlines => h (List.forall_mem_cons.mpr ⟨hline, hlines⟩)
      exact ⟨line :: front, alien, rest, rfl, List.forall_mem_cons.mpr ⟨hline, hfront⟩, halien⟩
    · exact ⟨[], line, lines, rfl, List.forall_mem_nil _, hline⟩

/-! ## Deliveries that fail -/

section Deliver

variable {dot : Text} {path : Path} {w : World}

/-- A drawing that cannot be encoded is not delivered to the standard output. -/
theorem execute_deliver_standard_of_alien (h : ¬ Utf8.Encodable dot) (w : World) :
    ∃ e, (deliver dot .standard).execute w = (.error (.notEncodable e), w) :=
  execute_print_of_alien h w

/-- A file that cannot be written is left alone. -/
theorem execute_deliver_of_unwritable {e : FileError}
    (h : w.files.write path.toText [] = .error e) :
    (deliver dot (.file path)).execute w = (.error (.notWritable e), w) := by
  unfold deliver
  simp only
  rw [Run.execute_bind_of_ok (Run.execute_files w), h]
  exact Run.execute_bind_of_error (Run.execute_ofExcept Failure.notWritable _ w)

/-- **A drawing that cannot be encoded** leaves its file empty. -/
theorem execute_deliver_file_of_alien {emptied : FileTree} (h : ¬ Utf8.Encodable dot)
    (hwrite : w.files.write path.toText [] = .ok emptied) :
    ∃ e, (deliver dot (.file path)).execute w =
      (.error (.notEncodable e), { w with files := emptied }) := by
  obtain ⟨e, he⟩ := Utf8.exists_encode_eq_error h
  refine ⟨e, ?_⟩
  unfold deliver
  simp only
  rw [Run.execute_bind_of_ok (Run.execute_files w), hwrite,
    Run.execute_bind_of_ok (Run.execute_ofExcept Failure.notWritable (.ok emptied) w),
    Run.execute_bind_of_ok (Run.execute_setFiles emptied w), he]
  exact Run.execute_bind_of_error (Run.execute_ofExcept Failure.notEncodable _ _)

end Deliver

/-! ## Outcomes -/

section Outcome

variable {input : Path} {options : Options} {files : FileTree} {xs : List Execution}
  {x : Execution} {k : Nat}

/-- **The outcome of a run is that of its plan.** -/
theorem outcome_of_perform (engine : Engine) (input : Path) (options : Options) (files : FileTree) :
    ∃ log, ∀ result after,
      ((plan input options files).perform engine input options).execute { files, log } =
          (result, after) →
        (outcomeOfRun engine input options files).exitCode = exitCodeOf result ∧
        (outcomeOfRun engine input options files).stdout = after.stdout ∧
        (outcomeOfRun engine input options files).files = after.files := by
  obtain ⟨log, hrun⟩ := execute_run_eq_perform engine input options { files }
  exact ⟨log, fun _ _ h => outcomeOfRun_of_execute (hrun.trans h)⟩

/-- A run that fails for want of an execution leaves everything alone. -/
theorem outcome_of_fail (engine : Engine) {failure : Failure}
    (h : plan input options files = .fail failure) :
    (outcomeOfRun engine input options files).exitCode = failure.stage.exitCode ∧
      (outcomeOfRun engine input options files).stdout = [] ∧
      (outcomeOfRun engine input options files).files = files := by
  obtain ⟨log, houtcome⟩ := outcome_of_perform engine input options files
  rw [h] at houtcome
  exact houtcome (.error failure) { files, log } rfl

theorem exitCode_of_stop (engine : Engine) (h : plan input options files = .stop) :
    (outcomeOfRun engine input options files).exitCode = 0 := by
  obtain ⟨log, houtcome⟩ := outcome_of_perform engine input options files
  rw [h] at houtcome
  exact (houtcome (.ok ()) { files, log } rfl).1

/-- A run that lists ends well if all lines can be encoded. -/
theorem exitCode_of_lists (engine : Engine) (h : Lists input options files xs k)
    (hlines : ∀ line ∈ listLines xs k, Utf8.Encodable line) :
    (outcomeOfRun engine input options files).exitCode = 0 := by
  obtain ⟨log, houtcome⟩ := outcome_of_perform engine input options files
  rw [plan_eq_list_iff.mpr h] at houtcome
  exact (houtcome _ _ (execute_printLines hlines _)).1

/-- **A run that comes upon a line that it cannot encode** has printed the lines in front of it. -/
theorem outcome_of_cut (engine : Engine) (h : Lists input options files xs k)
    {front rest : List Text} {alien : Text} (hlines : listLines xs k = front ++ alien :: rest)
    (hfront : ∀ line ∈ front, Utf8.Encodable line) (halien : ¬ Utf8.Encodable alien) :
    (outcomeOfRun engine input options files).exitCode = 2 ∧
      (outcomeOfRun engine input options files).stdout = Text.unlines front ∧
      (outcomeOfRun engine input options files).files = files := by
  obtain ⟨log, houtcome⟩ := outcome_of_perform engine input options files
  obtain ⟨e, hprint⟩ := execute_printLines_of_alien hfront halien rest { files, log }
  rw [plan_eq_list_iff.mpr h] at houtcome
  exact houtcome _ _ (hlines ▸ hprint)

/-- A run whose delivery fails makes no image, and leaves behind what the delivery does. -/
theorem outcome_of_undelivered (engine : Engine) (stage : Stage) (h : Draws input options files x k)
    {left : FileTree}
    (hdeliver : ∀ log, ∃ failure, failure.stage = stage ∧
      (deliver (x.render (options.drawList x)) options.output).execute { files, log } =
        (.error failure, { files := left, log })) :
    (outcomeOfRun engine input options files).exitCode = stage.exitCode ∧
      (outcomeOfRun engine input options files).stdout = [] ∧
      (outcomeOfRun engine input options files).files = left := by
  obtain ⟨log, houtcome⟩ := outcome_of_perform engine input options files
  obtain ⟨failure, rfl, hfailure⟩ := hdeliver log
  rw [plan_eq_draw_iff.mpr h] at houtcome
  exact houtcome _ _ (Run.execute_bind_of_error hfailure)

/-- **A drawing that cannot be encoded** is delivered nowhere. -/
theorem outcome_of_alien_standard (engine : Engine) (h : Draws input options files x k)
    (houtput : options.output = .standard)
    (halien : ¬ Utf8.Encodable (x.render (options.drawList x))) :
    (outcomeOfRun engine input options files).exitCode = 2 ∧
      (outcomeOfRun engine input options files).stdout = [] ∧
      (outcomeOfRun engine input options files).files = files := by
  refine outcome_of_undelivered engine .selection h fun log => ?_
  obtain ⟨e, he⟩ := execute_deliver_standard_of_alien halien { files, log }
  exact ⟨.notEncodable e, rfl, houtput ▸ he⟩

/-- A drawing that cannot be encoded leaves its file empty. -/
theorem outcome_of_alien_file (engine : Engine) (h : Draws input options files x k) {path : Path}
    (houtput : options.output = .file path) {emptied : FileTree}
    (hwrite : files.write path.toText [] = .ok emptied)
    (halien : ¬ Utf8.Encodable (x.render (options.drawList x))) :
    (outcomeOfRun engine input options files).exitCode = 2 ∧
      (outcomeOfRun engine input options files).stdout = [] ∧
      (outcomeOfRun engine input options files).files = emptied := by
  refine outcome_of_undelivered engine .selection h fun log => ?_
  obtain ⟨e, he⟩ := execute_deliver_file_of_alien (w := { files, log }) halien hwrite
  exact ⟨.notEncodable e, rfl, houtput ▸ he⟩

/-- A file that cannot be written is left alone. -/
theorem outcome_of_unwritable (engine : Engine) (h : Draws input options files x k) {path : Path}
    (houtput : options.output = .file path) {e : FileError}
    (hwrite : files.write path.toText [] = .error e) :
    (outcomeOfRun engine input options files).exitCode = (Failure.notWritable e).stage.exitCode ∧
      (outcomeOfRun engine input options files).stdout = [] ∧
      (outcomeOfRun engine input options files).files = files :=
  outcome_of_undelivered engine _ h fun log =>
    ⟨.notWritable e, rfl, houtput ▸ execute_deliver_of_unwritable (w := { files, log }) hwrite⟩

/-- Without a path for the drawing there is no delivery. -/
theorem outcome_of_nowhere (engine : Engine) (h : Draws input options files x k)
    (houtput : options.output = .nowhere) :
    (outcomeOfRun engine input options files).exitCode = 5 ∧
      (outcomeOfRun engine input options files).stdout = [] ∧
      (outcomeOfRun engine input options files).files = files :=
  outcome_of_undelivered engine .unexpected h fun log =>
    ⟨.noPath, rfl, houtput ▸ Run.execute_throw Failure.noPath { files, log }⟩

end Outcome

end CommandLine

end LitmusGraph
