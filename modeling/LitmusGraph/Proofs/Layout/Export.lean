import LitmusGraph.Layout.Export
import LitmusGraph.Proofs.FileTree.Writing

/-!
# Making an image stays out of the way

Making an image writes nothing to the standard output and changes no file. It goes on without the
folder for images if that cannot be made, and it fails only if the engine does so in a way that is
not about the image alone.

Results:
* `code?_of_makeFolders_defaultFolder`: what keeps the folder for images from being made.
* `exists_prepared_or_folder`, `exists_prepared`: an image has a path, whatever becomes of its
  folder.
* `Prepared.path_eq`, `placeOfImage_inj`: which path that is, and that it tells the name of the image.
* `Prepared.execute_exportImage`: what is left of making an image then is the answer of the engine.
* `exportImage_spares`: whatever the engine answers, all that is written and all files stay.
* `execute_exportImage`: making an image with a tame engine.
* `execute_exportImage_of_gives_none`: an engine that gives no image gives none, and no failure.
-/

namespace LitmusGraph

/-- The engine fails, if at all, because it is not installed, because its program ends with a status
other than zero, or because the system refuses something. -/
def Engine.Tame : Engine → Prop
  | .missing => True
  | .installed answer => ∀ call failure, answer call = .error failure →
    failure = .notExecutable ∨ (∃ status, failure = .exitStatus status) ∨
      ∃ reason, failure = .system reason

/-- A failure is one of those that the image alone suffers from. -/
def LayoutFailure.AboutImage (failure : LayoutFailure) : Prop :=
  failure = .notExecutable ∨ (∃ status, failure = .exitStatus status) ∨
    ∃ reason, failure = .system reason

theorem LayoutFailure.AboutImage.isTolerated {failure : LayoutFailure} (h : failure.AboutImage) :
    failure.isTolerated = true := by
  rcases h with rfl | ⟨status, rfl⟩ | ⟨reason, rfl⟩ <;> rfl

theorem isTolerated_of_tame {answer : LayoutCall → Except LayoutFailure Text} {call : LayoutCall}
    {failure : LayoutFailure} (h : (Engine.installed answer).Tame)
    (hfail : answer call = .error failure) : failure.isTolerated = true :=
  LayoutFailure.AboutImage.isTolerated (h call failure hfail)

/-- Asked for these calls, the engine fails in no other way. -/
def Engine.Spares (engine : Engine) (calls : List LayoutCall) : Prop :=
  ∀ answer, engine = .installed answer → ∀ call ∈ calls, ∀ failure,
    answer call = .error failure → failure.AboutImage

/-- The engine gives no image whatever it is asked for, and fails in no other way. -/
def Engine.GivesNone (engine : Engine) : Prop :=
  ∀ answer, engine = .installed answer → ∀ call, ∃ failure,
    answer call = .error failure ∧ failure.AboutImage

/-- The notices about an image and its folder. -/
def Notice.concernsImage : Notice → Bool
  | .engineMissing | .folderCreated _ | .folderFailed _ _ | .exported _ _ => true
  | _ => false

/-! ## The path of an image -/

/-- The folder for images has no folder above it to be made. -/
theorem headAndTail_defaultFolder : FileTree.headAndTail defaultFolder = ([], defaultFolder) := by
  decide

/-- **The file system reports** what keeps the folder for images from being made. -/
theorem code?_of_makeFolders_defaultFolder {tree : FileTree} {e : FileError}
    (h : (tree.makeFolders defaultFolder).2 = .error e) : e.fault.code?.isSome = true := by
  have hmake : tree.makeFolders defaultFolder = tree.makeOne defaultFolder := by
    have hlevels : FileTree.maxMissing = (FileTree.maxMissing - 1) + 1 := by decide
    unfold FileTree.makeFolders
    rw [hlevels, FileTree.makeFoldersWithin, headAndTail_defaultFolder]
    exact if_neg fun hhead => hhead.1 rfl
  rw [hmake, FileTree.makeOne] at h
  cases hfolder : tree.makeFolder defaultFolder with
  | ok after =>
    rw [hfolder] at h
    cases h
  | error e' =>
    rw [hfolder] at h
    cases h
    exact FileTree.code?_of_makeFolder (by decide) hfolder

/-- An image has the path `path`, once its folder has been looked after: `files` are the files then,
and `lines` is what has been told. -/
structure Prepared (folder base : Text) (w : World) (path : Text) (files : FileTree) (lines : Log) :
    Prop where
  execute : (imagePath folder base).execute w = (.ok path, { w with files, log := w.log ++ lines })
  concernsImage : ∀ n ∈ lines, n.concernsImage = true
  keeps : ∀ place, w.files.Keeps files place
  sameFiles : w.files.SameFiles files

/-- The path of an image whose folder was missing, by what came of making it. -/
def pathOnceMade (folder base : Text) : Except FileError Unit → Run ExportError Text
  | .ok () => do
    Run.tell (.folderCreated folder)
    return joinPath folder base
  | .error e =>
    if e.fault.code? = none then throw (.folder e)
    else do
      Run.tell (.folderFailed folder e.message)
      return base

theorem execute_imagePath_of_missing {folder : Text} {w : World} {tree : FileTree}
    {result : Except FileError Unit} (base : Text) (hmissing : ¬ w.files.reaches folder = true)
    (hmake : w.files.makeFolders folder = (tree, result)) :
    (imagePath folder base).execute w =
      (pathOnceMade folder base result).execute { w with files := tree } := by
  unfold imagePath
  rw [Run.execute_bind_of_ok (Run.execute_files w), if_neg hmissing, hmake]
  exact Run.execute_bind_of_ok (Run.execute_setFiles tree w)

/-- **An image has a path**, unless its folder cannot even be asked for. -/
theorem exists_prepared_or_folder (folder base : Text) (w : World) :
    (∃ path files lines, Prepared folder base w path files lines) ∨
      ∃ e after, (w.files.makeFolders folder).2 = .error e ∧ e.fault.code? = none ∧
        (imagePath folder base).execute w = (.error (.folder e), after) := by
  by_cases hreach : w.files.reaches folder = true
  · have hpath : (imagePath folder base).execute w = (.ok (joinPath folder base), w) := by
      unfold imagePath
      rw [Run.execute_bind_of_ok (Run.execute_files w), if_pos hreach]
      rfl
    refine .inl ⟨joinPath folder base, w.files, [], ?_, nofun, fun place => .refl _ place, .refl _⟩
    rw [List.append_nil]
    exact hpath
  have hkeeps := FileTree.makeFolders_keeps w.files folder
  have hsame := FileTree.makeFolders_sameFiles w.files folder
  cases hmake : w.files.makeFolders folder with
  | mk tree result =>
  have hpath := execute_imagePath_of_missing base hreach hmake
  rw [hmake] at hkeeps hsame
  cases result with
  | ok u =>
    rw [pathOnceMade, Run.execute_bind_of_ok (Run.execute_tell _ _)] at hpath
    exact .inl ⟨_, tree, _, hpath, List.forall_mem_singleton.mpr rfl, hkeeps, hsame⟩
  | error e =>
    rw [pathOnceMade] at hpath
    by_cases hcode : e.fault.code? = none
    · rw [if_pos hcode] at hpath
      exact .inr ⟨e, _, rfl, hcode, hpath⟩
    · rw [if_neg hcode, Run.execute_bind_of_ok (Run.execute_tell _ _)] at hpath
      exact .inl ⟨_, tree, _, hpath, List.forall_mem_singleton.mpr rfl, hkeeps, hsame⟩

/-- **An image in the folder for images has a path**, whatever becomes of that folder. -/
theorem exists_prepared (base : Text) (w : World) :
    ∃ path files lines, Prepared defaultFolder base w path files lines := by
  obtain hprepared | ⟨e, after, hmake, hcode, -⟩ := exists_prepared_or_folder defaultFolder base w
  · exact hprepared
  · have hsome := code?_of_makeFolders_defaultFolder hmake
    rw [hcode] at hsome
    exact nomatch hsome

/-- Where an image goes that has this name, the files being these: into its folder, unless that is
missing and cannot be made. -/
def placeOfImage (tree : FileTree) (folder base : Text) : Text :=
  if tree.reaches folder then joinPath folder base
  else
    match (tree.makeFolders folder).2 with
    | .ok () => joinPath folder base
    | .error _ => base

/-- The path of an image is where it goes. -/
theorem Prepared.path_eq {folder base path : Text} {w : World} {files : FileTree} {lines : Log}
    (h : Prepared folder base w path files lines) : path = placeOfImage w.files folder base := by
  have hpath := congrArg Prod.fst h.execute
  unfold placeOfImage
  by_cases hreach : w.files.reaches folder = true
  · rw [if_pos hreach]
    unfold imagePath at hpath
    rw [Run.execute_bind_of_ok (Run.execute_files w), if_pos hreach] at hpath
    exact (Except.ok.inj hpath).symm
  rw [if_neg hreach]
  cases hmake : w.files.makeFolders folder with
  | mk tree result =>
  rw [execute_imagePath_of_missing base hreach hmake] at hpath
  cases result with
  | ok u => exact (Except.ok.inj hpath).symm
  | error e =>
    rw [pathOnceMade] at hpath
    split at hpath
    · exact nomatch hpath
    · exact (Except.ok.inj hpath).symm

/-- A plain name in the folder for images. -/
theorem joinPath_defaultFolder {base : Text} (h : ('/' : CodePoint) ∉ base) :
    joinPath defaultFolder base = "execution_graphs/" ++ base := by
  have hhead : base.head? ≠ some ('/' : CodePoint) := fun e => h (List.mem_of_mem_head? e)
  unfold joinPath
  rw [if_neg hhead, if_neg (by decide)]
  rfl

/-- An image goes into its folder, or beside it if that is missing and cannot be made. -/
theorem placeOfImage_cases {base : Text} (h : ('/' : CodePoint) ∉ base) (tree : FileTree) :
    ((tree.reaches defaultFolder = true ∨ (tree.makeFolders defaultFolder).2 = .ok ()) ∧
        placeOfImage tree defaultFolder base = "execution_graphs/" ++ base) ∨
      (tree.reaches defaultFolder = false ∧ ∃ e, (tree.makeFolders defaultFolder).2 = .error e) ∧
        placeOfImage tree defaultFolder base = base := by
  rw [← joinPath_defaultFolder h]
  unfold placeOfImage
  by_cases hreach : tree.reaches defaultFolder = true
  · exact .inl ⟨.inl hreach, if_pos hreach⟩
  rw [if_neg hreach]
  cases hmake : (tree.makeFolders defaultFolder).2 with
  | ok u => exact .inl ⟨.inr rfl, rfl⟩
  | error e => exact .inr ⟨⟨Bool.eq_false_iff.mpr hreach, e, rfl⟩, rfl⟩

/-- **Where an image goes** tells its name, whatever the files. -/
theorem placeOfImage_inj {base base' : Text} (h : ('/' : CodePoint) ∉ base)
    (h' : ('/' : CodePoint) ∉ base') {tree tree' : FileTree}
    (heq : placeOfImage tree defaultFolder base = placeOfImage tree' defaultFolder base') :
    base = base' := by
  have hslash (name : Text) : ('/' : CodePoint) ∈ (("execution_graphs/" : Text) ++ name) :=
    List.mem_append_left _ (by decide)
  obtain ⟨-, hplace⟩ | ⟨-, hplace⟩ := placeOfImage_cases h tree <;>
    obtain ⟨-, hplace'⟩ | ⟨-, hplace'⟩ := placeOfImage_cases h' tree' <;>
    rw [hplace, hplace'] at heq
  · exact List.append_cancel_left heq
  -- A path in the folder has a slash, and a plain name has none.
  · exact absurd (heq ▸ hslash base) h'
  · exact absurd (heq ▸ hslash base') h
  · exact heq

/-! ## The answer of the engine -/

/-- What is told of a call that failed. -/
def exportFailed (call : LayoutCall) (failure : LayoutFailure) : Notice :=
  .exported false
    ("Failed to render execution graph to " ++ call.path ++ "." ++ call.format ++ ": "
      ++ failure.message
      ++ ". Ensure Graphviz executables (dot) are in your system's PATH.")

/-- What is told of a call that gave an image. -/
def exportDone (image : Text) : Notice := .exported true ("Execution graph saved to " ++ image)

/-- What becomes of an image once the engine has answered a call. -/
def answered (call : LayoutCall) (w : World) :
    Except LayoutFailure Text → Except ExportError (Option Text) × World
  | .ok image => (.ok (some image), { w with log := w.log ++ [exportDone image] })
  | .error failure =>
    if failure.isTolerated then (.ok none, { w with log := w.log ++ [exportFailed call failure] })
    else (.error (.engine failure), w)

theorem answered_of_aboutImage (call : LayoutCall) (w : World) {failure : LayoutFailure}
    (h : failure.AboutImage) :
    answered call w (.error failure) =
      (.ok none, { w with log := w.log ++ [exportFailed call failure] }) := if_pos h.isTolerated

theorem calls_answered (call : LayoutCall) (w : World) (answer : Except LayoutFailure Text) :
    (answered call w answer).2.calls = w.calls := by
  unfold answered
  split
  · rfl
  split <;> rfl

section ExportImage

variable {folder base path : Text} {w : World} {files : FileTree} {lines : Log}

/-- **Once an image has a path**, all that is left of making it is one call, and its answer. -/
theorem Prepared.execute_exportImage (h : Prepared folder base w path files lines)
    (answer : LayoutCall → Except LayoutFailure Text) (dot format : Text) :
    (exportImage (.installed answer) dot base format folder).execute w =
      answered { path, format, dot }
        { w with files, log := w.log ++ lines, calls := w.calls ++ [{ path, format, dot }] }
        (answer { path, format, dot }) := by
  have hcall (before : World) : (callEngine answer { path, format, dot }).execute before =
      (.ok (answer { path, format, dot }),
        { before with calls := before.calls ++ [{ path, format, dot }] }) := rfl
  unfold exportImage
  simp only
  rw [Run.execute_bind_of_ok h.execute, Run.execute_bind_of_ok (hcall _)]
  cases answer { path, format, dot } with
  | ok image => rfl
  | error failure =>
    unfold answered
    simp only
    split <;> rfl

/-- Without an engine that is all that is told. -/
theorem execute_exportImage_missing (dot base format folder : Text) (w : World) :
    (exportImage .missing dot base format folder).execute w =
      (.ok none, { w with log := w.log ++ [.engineMissing] }) :=
  Run.execute_bind_of_ok (Run.execute_tell _ w)

/-- **Making an image stays out of the way**: whatever the engine answers, nothing is written to the
standard output, and no file is changed, made or lost. -/
theorem exportImage_spares (engine : Engine) (dot base format : Text) (w : World) :
    let after := ((exportImage engine dot base format defaultFolder).execute w).2
    after.stdout = w.stdout ∧ (∀ place, w.files.Keeps after.files place) ∧
      w.files.SameFiles after.files := by
  cases engine with
  | missing =>
    rw [execute_exportImage_missing]
    exact ⟨rfl, fun place => .refl _ place, .refl _⟩
  | installed answer =>
    obtain ⟨path, files, lines, hprepared⟩ := exists_prepared base w
    rw [hprepared.execute_exportImage answer dot format]
    cases answer { path, format, dot } with
    | ok image => exact ⟨rfl, hprepared.keeps, hprepared.sameFiles⟩
    | error failure =>
      unfold answered
      simp only
      split
      · exact ⟨rfl, hprepared.keeps, hprepared.sameFiles⟩
      · exact ⟨rfl, hprepared.keeps, hprepared.sameFiles⟩

/-- **Making an image with a tame engine** never fails, writes nothing to the standard output and
changes no file. -/
theorem execute_exportImage {engine : Engine} (hengine : engine.Tame) (dot base format : Text)
    (w : World) :
    ∃ image after, (exportImage engine dot base format defaultFolder).execute w = (.ok image, after) ∧
      after.stdout = w.stdout ∧ ∀ place, w.files.Keeps after.files place := by
  obtain ⟨hstdout, hkeeps, -⟩ := exportImage_spares engine dot base format w
  refine (?_ : ∃ image, _).imp fun image h => ⟨_, Prod.ext h rfl, hstdout, hkeeps⟩
  cases engine with
  | missing => exact ⟨none, congrArg Prod.fst (execute_exportImage_missing dot base format _ w)⟩
  | installed answer =>
    obtain ⟨path, files, lines, hprepared⟩ := exists_prepared base w
    rw [hprepared.execute_exportImage answer dot format]
    cases hanswer : answer { path, format, dot } with
    | ok image => exact ⟨_, rfl⟩
    | error failure =>
      rw [answered, if_pos (isTolerated_of_tame hengine hanswer)]
      exact ⟨_, rfl⟩

/-- **An engine that gives no image gives none**, and no failure either, unless the folder for the
image cannot even be asked for. -/
theorem execute_exportImage_of_gives_none {engine : Engine} (hengine : engine.GivesNone)
    (dot base format folder : Text) (w : World) :
    (∃ after, (exportImage engine dot base format folder).execute w = (.ok none, after)) ∨
      ∃ e after, (w.files.makeFolders folder).2 = .error e ∧ e.fault.code? = none ∧
        (exportImage engine dot base format folder).execute w = (.error (.folder e), after) := by
  cases engine with
  | missing => exact .inl ⟨_, execute_exportImage_missing dot base format folder w⟩
  | installed answer =>
    obtain ⟨path, files, lines, hprepared⟩ | ⟨e, after, hmake, hcode, herror⟩ :=
      exists_prepared_or_folder folder base w
    · obtain ⟨failure, hanswer, habout⟩ := hengine answer rfl { path, format, dot }
      have hexport := hprepared.execute_exportImage answer dot format
      rw [hanswer, answered_of_aboutImage _ _ habout] at hexport
      exact .inl ⟨_, hexport⟩
    · exact .inr ⟨e, after, hmake, hcode, Run.execute_bind_of_error herror⟩

end ExportImage

end LitmusGraph
