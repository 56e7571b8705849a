import LitmusGraph.Proofs.FileTree.Following
import LitmusGraph.Proofs.Text.Utf8

/-!
# Writing keeps all other files

What an operation on files leaves alone: a file that is written is the only one that changes, and
folders that are made change no file at all.

Results:
* `Keeps.leads`, `Keeps.read`: what a tree that keeps another one still has.
* `write_spec`: what is at a path once a file is written there.
* `write_eq_self_iff`: when writing changes nothing.
* `write_write_spec`: the same if the file is emptied first.
* `exists_write_of_read`: a file that can be read can be written.
* `makeFolders_keeps`, `makeFolders_sameFiles`: making folders changes, makes and loses no file.
* `code?_of_write`, `code?_of_makeFolder`: the file system reports what keeps a file from being
  written, and a folder from being made.
-/

namespace LitmusGraph

namespace FileTree

/-- The later tree has all that is in the earlier one, and no file has another content but perhaps
the one at `place`. -/
structure Keeps (before after : FileTree) (place : List Text) : Prop where
  working : after.working = before.working
  nodes : before.root.Keeps after.root place

/-- A path leads to the place with these names. -/
def Leads (tree : FileTree) (path : Text) (place : List Text) : Prop :=
  ∃ trail, tree.locate path = .ok trail ∧ trail.names = place

theorem Keeps.refl (tree : FileTree) (place : List Text) : tree.Keeps tree place :=
  ⟨rfl, Node.Keeps.refl tree.root place⟩

theorem Keeps.trans {a b c : FileTree} {place : List Text} (hab : a.Keeps b place)
    (hbc : b.Keeps c place) : a.Keeps c place :=
  ⟨hbc.working.trans hab.working, hab.nodes.trans hbc.nodes⟩

theorem Keeps.steps {before after : FileTree} {place : List Text} (h : before.Keeps after place)
    (path : Text) : after.steps path = before.steps path := by
  unfold FileTree.steps
  rw [h.working]

/-- What changes no file at any place changes no file. -/
theorem at?_of_forall_keeps {before after : FileTree} (h : ∀ place, before.Keeps after place)
    {place : List Text} {content : Bytes} (hat : before.root.at? place = some (.file content)) :
    after.root.at? place = some (.file content) := by
  have hne : place ≠ place ++ [[]] := fun e => nomatch List.self_eq_append_right.mp e
  exact (h (place ++ [[]])).nodes.contents place content hne hat

/-! ## Where paths lead -/

/-- A path is located by following its pieces from the root. -/
theorem locate_eq_ok_iff {tree : FileTree} {path : Text} {trail : Trail} :
    tree.locate path = .ok trail ↔
      checkPath path = .ok () ∧ follow tree.root [] (tree.steps path) = .ok trail := by
  unfold locate
  cases checkPath path with
  | ok u => exact ⟨fun h => ⟨rfl, h⟩, And.right⟩
  | error fault =>
    constructor
    · intro h
      exact nomatch h
    · rintro ⟨h, -⟩
      exact nomatch h

theorem Leads.inj {tree : FileTree} {path : Text} {place place' : List Text}
    (h : tree.Leads path place) (h' : tree.Leads path place') : place = place' := by
  obtain ⟨trail, hlocate, rfl⟩ := h
  obtain ⟨trail', hlocate', rfl⟩ := h'
  rw [Except.ok.inj (hlocate.symm.trans hlocate')]

/-- **Paths lead to the same places** in a tree that keeps another one. -/
theorem Keeps.leads {before after : FileTree} {place names : List Text} {path : Text}
    (hkeeps : before.Keeps after place) (h : before.Leads path names) : after.Leads path names := by
  obtain ⟨trail, hlocate, rfl⟩ := h
  obtain ⟨hcheck, hfollow⟩ := locate_eq_ok_iff.mp hlocate
  obtain ⟨trail', hfollow', hnames⟩ :=
    follow_keeps hkeeps.nodes (Trail.valid_nil _) (Trail.valid_nil _) rfl hfollow
  exact ⟨trail', locate_eq_ok_iff.mpr ⟨hcheck, hkeeps.steps path ▸ hfollow'⟩, hnames⟩

/-- A file is read at the place that the path leads to. -/
theorem read_eq_ok_iff {tree : FileTree} {path : Text} {content : Bytes} :
    tree.read path = .ok content ↔
      ∃ place, tree.Leads path place ∧ tree.root.at? place = some (.file content) := by
  constructor
  · intro h
    unfold read at h
    split at h
    · exact nomatch h
    next trail hlocate =>
    have hvalid := follow_valid (Trail.valid_nil _) (locate_eq_ok_iff.mp hlocate).2
    split at h
    · next content' hnode =>
      obtain rfl := Except.ok.inj h
      exact ⟨trail.names, ⟨trail, hlocate, rfl⟩, hvalid.at?_names.trans (congrArg some hnode)⟩
    · exact nomatch h
  · rintro ⟨place, ⟨trail, hlocate, rfl⟩, hat⟩
    have hvalid := follow_valid (Trail.valid_nil _) (locate_eq_ok_iff.mp hlocate).2
    have hnode : trail.node tree.root = .file content :=
      Option.some.inj (hvalid.at?_names.symm.trans hat)
    unfold read
    rw [hlocate]
    simp only
    rw [hnode]

/-- A file at another place is read as before. -/
theorem Keeps.read {before after : FileTree} {place names : List Text} {path : Text} {content : Bytes}
    (hkeeps : before.Keeps after place) (hleads : before.Leads path names) (hne : names ≠ place)
    (h : before.read path = .ok content) : after.read path = .ok content := by
  obtain ⟨names', hleads', hat⟩ := read_eq_ok_iff.mp h
  obtain rfl := hleads.inj hleads'
  exact read_eq_ok_iff.mpr ⟨names, hkeeps.leads hleads, hkeeps.nodes.contents _ _ hne hat⟩

/-- What changes no file at any place leaves each file to be read as before. -/
theorem read_of_forall_keeps {before after : FileTree} (h : ∀ place, before.Keeps after place)
    {path : Text} {content : Bytes} (hread : before.read path = .ok content) :
    after.read path = .ok content := by
  obtain ⟨place, hleads, hat⟩ := read_eq_ok_iff.mp hread
  exact read_eq_ok_iff.mpr ⟨place, (h []).leads hleads, at?_of_forall_keeps h hat⟩

/-! ## The folder that a path points into -/

/-- The folder above the last piece of a path is followed like any other. -/
theorem locateParent_eq_ok_iff {tree : FileTree} {path : Text} {place : List Text}
    {entries : Table Node} {name : Text} :
    tree.locateParent path = .ok (place, entries, name) ↔
      checkPath path = .ok () ∧ name = (tree.steps path).getLast?.getD [] ∧
      ∃ trail, follow tree.root [] (tree.steps path).dropLast = .ok trail ∧
        trail.node tree.root = .folder entries ∧ trail.names = place := by
  unfold locateParent
  cases checkPath path with
  | error fault =>
    constructor
    · intro h
      exact nomatch h
    · rintro ⟨h, -⟩
      exact nomatch h
  | ok u =>
    cases hfollow : follow tree.root [] (tree.steps path).dropLast with
    | error fault =>
      constructor
      · intro h
        exact nomatch h
      · rintro ⟨-, -, trail, h, -⟩
        exact nomatch h
    | ok trail =>
      simp only [bind, Except.bind]
      cases hnode : trail.node tree.root with
      | file content =>
        constructor
        · intro h
          exact nomatch h
        · rintro ⟨-, -, trail', h, h', -⟩
          obtain rfl := Except.ok.inj h
          exact nomatch hnode.symm.trans h'
      | folder es =>
        constructor
        · intro h
          cases h
          exact ⟨trivial, rfl, trail, rfl, hnode, rfl⟩
        · rintro ⟨-, rfl, trail', h, h', rfl⟩
          obtain rfl := Except.ok.inj h
          rw [Node.folder.inj (hnode.symm.trans h')]
          rfl

/-- The place of the folder that a path points into. -/
theorem at?_of_locateParent {tree : FileTree} {path : Text} {place : List Text}
    {entries : Table Node} {name : Text} (h : tree.locateParent path = .ok (place, entries, name)) :
    tree.root.at? place = some (.folder entries) := by
  obtain ⟨-, -, trail, hfollow, hnode, rfl⟩ := locateParent_eq_ok_iff.mp h
  exact (follow_valid (Trail.valid_nil _) hfollow).at?_names.trans (congrArg some hnode)

/-- A path points into the same folder in a tree that keeps another one. -/
theorem Keeps.locateParent {before after : FileTree} {path : Text} {place other : List Text}
    {entries : Table Node} {name : Text} (hkeeps : before.Keeps after other)
    (h : before.locateParent path = .ok (place, entries, name)) :
    ∃ entries', after.locateParent path = .ok (place, entries', name) := by
  obtain ⟨hcheck, hname, trail, hfollow, hnode, rfl⟩ := locateParent_eq_ok_iff.mp h
  obtain ⟨trail', hfollow', hnames⟩ :=
    follow_keeps hkeeps.nodes (Trail.valid_nil _) (Trail.valid_nil _) rfl hfollow
  have hvalid' := follow_valid (Trail.valid_nil _) hfollow'
  obtain ⟨entries', hfolder⟩ := hkeeps.nodes.folder (at?_of_locateParent h)
  rw [← hnames, hvalid'.at?_names] at hfolder
  have hsteps := hkeeps.steps path
  refine ⟨entries', locateParent_eq_ok_iff.mpr ⟨hcheck, hsteps ▸ hname, trail', ?_, ?_, hnames⟩⟩
  · rw [hsteps]
    exact hfollow'
  · exact Option.some.inj hfolder

/-- The last piece of a path, if it names something, leads to the entry of that name. -/
theorem leads_of_locateParent {tree : FileTree} {path : Text} {place : List Text}
    {entries : Table Node} {name : Text} {node : Node}
    (h : tree.locateParent path = .ok (place, entries, name)) (hname : isStep name = false)
    (hlong : ¬ maxName < byteLength name) (hnode : entries.get? name = some node) :
    tree.Leads path (place ++ [name]) := by
  obtain ⟨hcheck, hlast, trail, hfollow, hfolder, rfl⟩ := locateParent_eq_ok_iff.mp h
  simp only [isStep, Bool.or_eq_false_iff, decide_eq_false_iff_not] at hname
  obtain ⟨⟨hempty, hdot⟩, hdots⟩ := hname
  have hsteps : tree.steps path = (tree.steps path).dropLast ++ [name] := by
    cases hcase : (tree.steps path).getLast? with
    | none =>
      rw [hcase] at hlast
      exact absurd hlast hempty
    | some last =>
      rw [hcase] at hlast
      rw [List.dropLast_append_getLast? name (hcase.trans (congrArg some hlast.symm))]
  refine ⟨(name, node) :: trail, locate_eq_ok_iff.mpr ⟨hcheck, ?_⟩, Trail.names_cons ..⟩
  rw [hsteps, follow_append, hfollow]
  show follow tree.root trail [name] = _
  unfold follow
  rw [hfolder]
  simp only
  rw [if_neg (not_or.mpr ⟨hempty, hdot⟩), if_neg hdots, if_neg hlong, hnode]
  rfl

/-! ## Writing -/

/-- What it takes to write a file, and what the tree is afterwards. -/
theorem write_eq_ok_iff {tree after : FileTree} {path : Text} {content : Bytes} :
    tree.write path content = .ok after ↔
      ∃ place entries name, tree.locateParent path = .ok (place, entries, name) ∧
        isStep name = false ∧ ¬ maxName < byteLength name ∧
        (∀ node, entries.get? name = some node → node.isFile = true) ∧
        after = { tree with root := tree.root.put (place ++ [name]) (.file content) } := by
  unfold write
  cases hparent : tree.locateParent path with
  | error fault =>
    constructor
    · intro h
      exact nomatch h
    · rintro ⟨place, entries, name, h, -⟩
      exact nomatch h
  | ok parent =>
    obtain ⟨place, entries, name⟩ := parent
    simp only
    constructor
    · intro h
      split at h
      · exact nomatch h
      next hname =>
      split at h
      · exact nomatch h
      next hlong =>
      split at h
      · exact nomatch h
      next hfolder =>
      refine ⟨place, entries, name, rfl, Bool.eq_false_iff.mpr hname, hlong, ?_,
        (Except.ok.inj h).symm⟩
      intro node hnode
      cases node with
      | file _ => rfl
      | folder es => exact absurd hnode (hfolder es)
    · rintro ⟨place', entries', name', h, hname, hlong, hfile, rfl⟩
      cases h
      rw [if_neg (Bool.eq_false_iff.mp hname), if_neg hlong]
      split
      · next es hfolder => exact nomatch hfile _ hfolder
      · rfl

/-- A file is written by putting it where the path leads to then, and all else is as before. -/
theorem exists_put_of_write {tree after : FileTree} {path : Text} {content : Bytes}
    (h : tree.write path content = .ok after) :
    ∃ place, after = { tree with root := tree.root.put place (.file content) } ∧
      after.Leads path place ∧ after.root.at? place = some (.file content) ∧
      tree.Keeps after place := by
  obtain ⟨place, entries, name, hparent, hname, hlong, hfile, rfl⟩ := write_eq_ok_iff.mp h
  have hfolder := at?_of_locateParent hparent
  have hkeeps : tree.Keeps
      { tree with root := tree.root.put (place ++ [name]) (.file content) } (place ++ [name]) :=
    ⟨rfl, Node.keeps_put hfolder fun old hold => ⟨hfile old hold, rfl⟩⟩
  have hself := Node.at?_put_self hfolder name (.file content)
  obtain ⟨entries', hparent'⟩ := hkeeps.locateParent hparent
  have hentry := (Node.at?_append_singleton (at?_of_locateParent hparent') name).symm.trans hself
  exact ⟨place ++ [name], rfl, leads_of_locateParent hparent' hname hlong hentry, hself, hkeeps⟩

/-- **A file that is written is at its path**, and all else is as before. -/
theorem write_spec {tree after : FileTree} {path : Text} {content : Bytes}
    (h : tree.write path content = .ok after) :
    ∃ place, after.Leads path place ∧ after.root.at? place = some (.file content) ∧
      tree.Keeps after place := by
  obtain ⟨place, -, hspec⟩ := exists_put_of_write h
  exact ⟨place, hspec⟩

/-- **Writing changes nothing** exactly if the file holds already what is written. -/
theorem write_eq_self_iff {tree after : FileTree} {path : Text} {content : Bytes}
    (h : tree.write path content = .ok after) : after = tree ↔ tree.read path = .ok content := by
  obtain ⟨place, hafter, hleads, hat, hkeeps⟩ := exists_put_of_write h
  constructor
  · rintro rfl
    exact read_eq_ok_iff.mpr ⟨place, hleads, hat⟩
  · intro hread
    obtain ⟨place', hleads', hat'⟩ := read_eq_ok_iff.mp hread
    obtain rfl := hleads.inj (hkeeps.leads hleads')
    rw [hafter, Node.put_eq_self hat']

/-- A file that is written can be written again. -/
theorem write_again {tree emptied : FileTree} {path : Text} {first : Bytes}
    (h : tree.write path first = .ok emptied) (content : Bytes) :
    ∃ after, emptied.write path content = .ok after := by
  obtain ⟨place, -, -, hkeeps⟩ := write_spec h
  obtain ⟨parent, entries, name, hparent, hname, hlong, hfile, rfl⟩ := write_eq_ok_iff.mp h
  obtain ⟨entries', hparent'⟩ := hkeeps.locateParent hparent
  refine ⟨_, write_eq_ok_iff.mpr ⟨parent, entries', name, hparent', hname, hlong, ?_, rfl⟩⟩
  intro node hnode
  -- The entry is the file just written, so no folder stands in the way.
  rw [← Node.at?_append_singleton (at?_of_locateParent hparent') name,
    Node.at?_put_self (at?_of_locateParent hparent) name (.file first)] at hnode
  rw [← Option.some.inj hnode]
  rfl

/-- **A file that is emptied and then written is at its path**, and all else is as before. -/
theorem write_write_spec {tree emptied : FileTree} {path : Text} {first : Bytes}
    (h : tree.write path first = .ok emptied) (content : Bytes) :
    ∃ after place, emptied.write path content = .ok after ∧ after.Leads path place ∧
      after.root.at? place = some (.file content) ∧ tree.Keeps after place := by
  obtain ⟨after, hwrite⟩ := write_again h content
  obtain ⟨place, hleads, -, hkeeps⟩ := write_spec h
  obtain ⟨place', hleads', hat, hkeeps'⟩ := write_spec hwrite
  obtain rfl := (hkeeps'.leads hleads).inj hleads'
  exact ⟨after, place, hwrite, hleads', hat, hkeeps.trans hkeeps'⟩

/-- Above a place that a trail leads to is a folder. -/
theorem exists_folder_tail {root : Node} {trail : Trail} (h : trail.Valid root)
    {entries : List (Text × Node)} (hfolder : trail.node root = .folder entries) :
    ∃ entries', Trail.node root trail.tail = .folder entries' := by
  cases trail with
  | nil => exact ⟨entries, hfolder⟩
  | cons entry trail =>
    obtain ⟨name, node⟩ := entry
    have hat := h.at?_names
    rw [Trail.names_cons, Node.at?_append, h.2.at?_names, Option.bind_some] at hat
    obtain ⟨entries', -, hnode, -⟩ := Node.exists_entry_of_at?_cons hat
    exact ⟨entries', hnode⟩

/-- A piece that leads on to a file is the name of an entry. -/
theorem entry_of_follow {root : Node} {parent trail : Trail} {name : Text} {content : Bytes}
    (hparent : parent.Valid root) (h : follow root parent [name] = .ok trail)
    (hfile : trail.node root = .file content) :
    ∃ entries : Table Node, parent.node root = .folder entries ∧ isStep name = false ∧
      ¬ maxName < byteLength name ∧ entries.get? name = some (.file content) := by
  unfold follow at h
  split at h
  · cases h
  next entries hfolder =>
  by_cases hstay : name = [] ∨ name = (("." : Text))
  · rw [if_pos hstay] at h
    cases h
    rw [hfolder] at hfile
    cases hfile
  by_cases hup : name = ((".." : Text))
  · rw [if_neg hstay, if_pos hup] at h
    cases h
    obtain ⟨entries', htail⟩ := exists_folder_tail hparent hfolder
    rw [htail] at hfile
    cases hfile
  by_cases hlong : maxName < byteLength name
  · rw [if_neg hstay, if_neg hup, if_pos hlong] at h
    cases h
  rw [if_neg hstay, if_neg hup, if_neg hlong] at h
  split at h
  · cases h
  next node hnode =>
  cases h
  have hentry : node = .file content := hfile
  refine ⟨entries, hfolder, ?_, hlong, hentry ▸ hnode⟩
  simpa [isStep, not_or] using And.intro (not_or.mp hstay) hup

/-- A path has at least one piece. -/
theorem steps_ne_nil (tree : FileTree) (path : Text) : tree.steps path ≠ [] := by
  unfold steps Text.pieces
  split
  · exact List.splitOn_ne_nil _ _
  · exact List.append_ne_nil_of_right_ne_nil _ (List.splitOn_ne_nil _ _)

/-- **A file that can be read can be written.** -/
theorem exists_write_of_read {tree : FileTree} {path : Text} {content : Bytes}
    (h : tree.read path = .ok content) (new : Bytes) : ∃ after, tree.write path new = .ok after := by
  obtain ⟨place, ⟨trail, hlocate, rfl⟩, hat⟩ := read_eq_ok_iff.mp h
  obtain ⟨hcheck, hfollow⟩ := locate_eq_ok_iff.mp hlocate
  have hfile : trail.node tree.root = .file content :=
    Option.some.inj ((follow_valid (Trail.valid_nil _) hfollow).at?_names.symm.trans hat)
  obtain ⟨before, name, hsteps⟩ : ∃ before name, tree.steps path = before ++ [name] :=
    ⟨_, _, (List.dropLast_append_getLast (tree.steps_ne_nil path)).symm⟩
  rw [hsteps, follow_append] at hfollow
  cases hparent : follow tree.root [] before with
  | error fault =>
    rw [hparent] at hfollow
    cases hfollow
  | ok parent =>
  rw [hparent] at hfollow
  obtain ⟨entries, hfolder, hname, hlong, hentry⟩ :=
    entry_of_follow (follow_valid (Trail.valid_nil _) hparent) hfollow hfile
  refine ⟨_, write_eq_ok_iff.mpr ⟨parent.names, entries, name, ?_, hname, hlong, ?_, rfl⟩⟩
  · refine locateParent_eq_ok_iff.mpr ⟨hcheck, ?_, parent, ?_, hfolder, rfl⟩
    · rw [hsteps, List.getLast?_concat, Option.getD_some]
    · rw [hsteps, List.dropLast_concat, hparent]
  · intro node hnode
    rw [← Option.some.inj (hentry.symm.trans hnode)]
    rfl

/-! ## Making folders -/

/-- A folder is made by putting an empty one into a folder that has no such entry. -/
theorem exists_put_of_makeFolder {tree after : FileTree} {path : Text}
    (h : tree.makeFolder path = .ok after) :
    ∃ place entries name, tree.root.at? place = some (.folder entries) ∧
      Table.get? entries name = none ∧
      after = { tree with root := tree.root.put (place ++ [name]) (.folder []) } := by
  unfold makeFolder at h
  simp only at h
  split at h
  · exact nomatch h
  split at h
  · exact nomatch h
  split at h
  · exact nomatch h
  next hparent =>
  split at h
  · exact nomatch h
  split at h
  · exact nomatch h
  split at h
  · exact nomatch h
  next place entries name _ _ hnew =>
  exact ⟨place, entries, name, at?_of_locateParent hparent, Option.not_isSome_iff_eq_none.mp hnew,
    (Except.ok.inj h).symm⟩

/-- The tree with one folder made, or as it was. -/
def makeOne (tree : FileTree) (path : Text) : FileTree × Except FileError Unit :=
  match tree.makeFolder path with
  | .ok after => (after, .ok ())
  | .error e => (tree, .error e)

/-- What making one folder keeps, making any number of them keeps, whether or not that gets to the
end. -/
theorem makeFolders_induction {R : FileTree → FileTree → Prop} (hrefl : ∀ a, R a a)
    (htrans : ∀ {a b c}, R a b → R b c → R a c)
    (hmake : ∀ {a b path}, FileTree.makeFolder a path = .ok b → R a b) (tree : FileTree)
    (path : Text) : R tree (tree.makeFolders path).1 := by
  have hone : ∀ a path, R a (makeOne a path).1 := by
    intro a path
    unfold makeOne
    cases h : a.makeFolder path with
    | ok b => exact hmake h
    | error e => exact hrefl a
  unfold makeFolders
  generalize maxMissing = levels
  induction levels generalizing tree path with
  | zero => exact hrefl tree
  | succ levels ih =>
    unfold makeFoldersWithin
    simp only
    split
    · have habove := ih tree (headAndTail path).1
      split
      · split
        · exact habove
        · exact htrans habove (hone _ path)
      · split
        · exact habove
        · split
          · exact habove
          · exact htrans habove (hone _ path)
    · exact hone tree path

/-- A folder that is made changes no file. -/
theorem makeFolder_keeps {tree after : FileTree} {path : Text}
    (h : tree.makeFolder path = .ok after) (place : List Text) : tree.Keeps after place := by
  obtain ⟨parent, entries, name, hfolder, hnone, rfl⟩ := exists_put_of_makeFolder h
  refine ⟨rfl, Node.Keeps.of_at?_eq_none (Node.keeps_put hfolder ?_) ?_ place⟩
  · intro old hold
    exact nomatch hnone.symm.trans hold
  · exact (Node.at?_append_singleton hfolder name).trans hnone

/-- **Making folders changes no file.** -/
theorem makeFolders_keeps (tree : FileTree) (path : Text) (place : List Text) :
    tree.Keeps (tree.makeFolders path).1 place :=
  makeFolders_induction (R := fun a b => a.Keeps b place) (fun a => Keeps.refl a place) Keeps.trans
    (fun h => makeFolder_keeps h place) tree path

/-- Two trees have the same files, each with the same content. -/
def SameFiles (a b : FileTree) : Prop :=
  ∀ names content, a.root.at? names = some (.file content) ↔ b.root.at? names = some (.file content)

theorem SameFiles.refl (tree : FileTree) : tree.SameFiles tree := fun _ _ => Iff.rfl

theorem SameFiles.symm {a b : FileTree} (h : a.SameFiles b) : b.SameFiles a :=
  fun names content => (h names content).symm

theorem SameFiles.trans {a b c : FileTree} (hab : a.SameFiles b) (hbc : b.SameFiles c) :
    a.SameFiles c := fun names content => (hab names content).trans (hbc names content)

/-- A folder that is made brings no file with it. -/
theorem makeFolder_sameFiles {tree after : FileTree} {path : Text}
    (h : tree.makeFolder path = .ok after) : tree.SameFiles after := by
  intro names content
  refine ⟨at?_of_forall_keeps (makeFolder_keeps h), fun hfile => ?_⟩
  obtain ⟨parent, entries, name, hfolder, -, rfl⟩ := exists_put_of_makeFolder h
  exact Node.at?_file_of_put_folder hfolder hfile

/-- **Making folders neither makes nor loses a file.** -/
theorem makeFolders_sameFiles (tree : FileTree) (path : Text) :
    tree.SameFiles (tree.makeFolders path).1 :=
  makeFolders_induction SameFiles.refl SameFiles.trans makeFolder_sameFiles tree path

/-! ## What the file system reports -/

/-- What keeps a path from being followed has a number. -/
theorem code?_of_follow {root : Node} {trail : Trail} {pieces : List Text} {fault : FileFault}
    (h : follow root trail pieces = .error fault) : fault.code?.isSome = true := by
  induction pieces generalizing trail with
  | nil => exact nomatch h
  | cons piece pieces ih =>
    unfold follow at h
    split at h
    · obtain rfl := Except.error.inj h
      rfl
    split at h
    · exact ih h
    split at h
    · exact ih h
    split at h
    · obtain rfl := Except.error.inj h
      rfl
    split at h
    · obtain rfl := Except.error.inj h
      rfl
    · exact ih h

/-- The file system can be asked about a path: it can be encoded and holds no NUL. -/
def Askable (path : Text) : Prop := ∀ c ∈ path, c ≠ CodePoint.nul ∧ c.isUnnameable = false

instance : DecidablePred Askable := fun path =>
  inferInstanceAs (Decidable (∀ c ∈ path, c ≠ CodePoint.nul ∧ c.isUnnameable = false))

theorem Askable.mono {path part : Text} (h : Askable path) (hpart : ∀ c ∈ part, c ∈ path) :
    Askable part := fun c hc => h c (hpart c hc)

/-- What is wrong with a path that the file system can be asked about has a number. -/
theorem code?_of_checkPath {path : Text} {fault : FileFault} (haskable : Askable path)
    (h : checkPath path = .error fault) : fault.code?.isSome = true := by
  have hencodable : Utf8.firstRefused? CodePoint.isUnnameable path = none :=
    Utf8.firstRefused?_eq_none_iff.mpr fun c hc => (haskable c hc).2
  have hnul : ¬ path.contains CodePoint.nul := fun hmem =>
    (haskable _ (List.contains_iff_mem.mp hmem)).1 rfl
  unfold checkPath at h
  rw [hencodable] at h
  dsimp only at h
  rw [if_neg hnul] at h
  split at h
  · obtain rfl := Except.error.inj h
    rfl
  split at h
  · obtain rfl := Except.error.inj h
    rfl
  · exact nomatch h

theorem code?_of_locateParent {tree : FileTree} {path : Text} {fault : FileFault}
    (haskable : Askable path) (h : tree.locateParent path = .error fault) :
    fault.code?.isSome = true := by
  unfold locateParent at h
  cases hcheck : checkPath path with
  | error fault' =>
    rw [hcheck] at h
    obtain rfl := Except.error.inj h
    exact code?_of_checkPath haskable hcheck
  | ok u =>
    rw [hcheck] at h
    cases hfollow : follow tree.root [] (tree.steps path).dropLast with
    | error fault' =>
      rw [hfollow] at h
      obtain rfl := Except.error.inj h
      exact code?_of_follow hfollow
    | ok trail =>
      rw [hfollow] at h
      simp only [bind, Except.bind] at h
      split at h
      · exact nomatch h
      · obtain rfl := Except.error.inj h
        rfl

/-- **The file system reports** what keeps a file from being written, if it can be asked about its
path. -/
theorem code?_of_write {tree : FileTree} {path : Text} {content : Bytes} {e : FileError}
    (haskable : Askable path) (h : tree.write path content = .error e) :
    e.fault.code?.isSome = true := by
  unfold write at h
  split at h
  · next hparent =>
    obtain rfl := Except.error.inj h
    exact code?_of_locateParent haskable hparent
  split at h
  · obtain rfl := Except.error.inj h
    rfl
  split at h
  · obtain rfl := Except.error.inj h
    rfl
  split at h
  · obtain rfl := Except.error.inj h
    rfl
  · exact nomatch h

/-- **The file system reports** what keeps a folder from being made, if it can be asked about its path. -/
theorem code?_of_makeFolder {tree : FileTree} {path : Text} {e : FileError}
    (haskable : Askable path) (h : tree.makeFolder path = .error e) :
    e.fault.code?.isSome = true := by
  unfold makeFolder at h
  simp only at h
  split at h
  · next hcheck =>
    obtain rfl := Except.error.inj h
    exact code?_of_checkPath haskable hcheck
  split at h
  · obtain rfl := Except.error.inj h
    rfl
  split at h
  · next hparent =>
    obtain rfl := Except.error.inj h
    refine code?_of_locateParent (haskable.mono fun c hc => ?_) hparent
    exact List.mem_reverse.mp ((List.dropWhile_sublist _).subset (List.mem_reverse.mp hc))
  split at h
  · obtain rfl := Except.error.inj h
    rfl
  split at h
  · obtain rfl := Except.error.inj h
    rfl
  split at h
  · obtain rfl := Except.error.inj h
    rfl
  · exact nomatch h

end FileTree

end LitmusGraph
