import LitmusGraph.FileTree.Basic
import Mathlib.Data.List.Basic

/-!
# Following a path in a tree that changes

A tree keeps another one if all that was there is there still, files as files and folders as
folders, and no file but the one at a given place has another content. Then each path that could be
followed can be followed still, and leads to the same place.

Results:
* `at?_put_self`, `put_eq_self`, `keeps_put`, `at?_file_of_put_folder`: what putting a node into a
  folder does to the tree.
* `follow_valid`: following a path leads to nodes of the tree.
* `follow_append`: a path is followed piece by piece.
* `follow_keeps`: a tree that keeps another one is followed in the same way.
-/

namespace LitmusGraph

namespace Node

/-- Whether a node is a file. -/
def isFile : Node → Bool
  | .file _ => true
  | .folder _ => false

/-- The tree under `new` has all that is under `old`, and no file has another content but perhaps
the one at `place`. -/
structure Keeps (old new : Node) (place : List Text) : Prop where
  kinds : ∀ names node, old.at? names = some node →
    ∃ node', new.at? names = some node' ∧ node'.isFile = node.isFile
  contents : ∀ names content, names ≠ place → old.at? names = some (.file content) →
    new.at? names = some (.file content)

/-! ## Nodes by their names -/

theorem at?_nil (node : Node) : node.at? [] = some node := by
  cases node <;> rfl

theorem at?_append (node : Node) (names rest : List Text) :
    node.at? (names ++ rest) = (node.at? names).bind (·.at? rest) := by
  induction names generalizing node with
  | nil => rw [List.nil_append, at?_nil, Option.bind_some]
  | cons name names ih =>
    cases node with
    | file content => rfl
    | folder entries =>
      show (Table.get? entries name).bind (at? · (names ++ rest)) = _
      simp only [at?, ih, Option.bind_assoc]

theorem at?_append_singleton {root : Node} {names : List Text} {entries : List (Text × Node)}
    (h : root.at? names = some (.folder entries)) (name : Text) :
    root.at? (names ++ [name]) = Table.get? entries name := by
  rw [at?_append, h, Option.bind_some, at?]
  cases Table.get? entries name with
  | none => rfl
  | some node => exact at?_nil node

/-- A folder on the way is opened by its entry. -/
theorem exists_entry_of_at?_cons {root node : Node} {name : Text} {rest : List Text}
    (h : root.at? (name :: rest) = some node) :
    ∃ entries sub, root = .folder entries ∧ Table.get? entries name = some sub ∧
      sub.at? rest = some node := by
  cases root with
  | file content => exact nomatch h
  | folder entries =>
    obtain ⟨sub, hsub, hnode⟩ := Option.bind_eq_some_iff.mp h
    exact ⟨entries, sub, rfl, hsub, hnode⟩

/-- A folder is still a folder. -/
theorem Keeps.folder {old new : Node} {place names : List Text} {entries : List (Text × Node)}
    (hkeeps : old.Keeps new place) (h : old.at? names = some (.folder entries)) :
    ∃ entries', new.at? names = some (.folder entries') := by
  obtain ⟨node, hnode, hkind⟩ := hkeeps.kinds names _ h
  cases node with
  | file content => exact nomatch hkind
  | folder entries' => exact ⟨entries', hnode⟩

theorem Keeps.refl (root : Node) (place : List Text) : root.Keeps root place where
  kinds _ node h := ⟨node, h, rfl⟩
  contents _ _ _ h := h

theorem Keeps.trans {a b c : Node} {place : List Text} (hab : a.Keeps b place)
    (hbc : b.Keeps c place) : a.Keeps c place where
  kinds names node h := by
    obtain ⟨node', h', hkind⟩ := hab.kinds names node h
    obtain ⟨node'', h'', hkind'⟩ := hbc.kinds names node' h'
    exact ⟨node'', h'', hkind'.trans hkind⟩
  contents names content hne h := hbc.contents names content hne (hab.contents names content hne h)

/-- What was nowhere before has no content to lose. -/
theorem Keeps.of_at?_eq_none {old new : Node} {place : List Text} (h : old.Keeps new place)
    (hnone : old.at? place = none) (other : List Text) : old.Keeps new other where
  kinds := h.kinds
  contents names content _ hfile := by
    refine h.contents names content (fun he => ?_) hfile
    rw [he, hnone] at hfile
    exact nomatch hfile

/-! ## Putting a node into a folder -/

variable {root new : Node} {place : List Text} {entries : List (Text × Node)} {name : Text}

/-- A node that is put somewhere is there. -/
theorem at?_put_self (h : root.at? place = some (.folder entries)) (name : Text) (new : Node) :
    (root.put (place ++ [name]) new).at? (place ++ [name]) = some new := by
  induction place generalizing root with
  | nil =>
    rw [at?_nil] at h
    obtain rfl := Option.some.inj h
    simp only [List.nil_append, put, at?, Table.get?_insert, if_true, Option.bind_some]
  | cons first place ih =>
    obtain ⟨es, sub, rfl, hsub, hfolder⟩ := exists_entry_of_at?_cons h
    simp only [List.cons_append, put, at?, Table.get?_insert, if_true, Option.bind_some, hsub,
      Option.getD_some]
    exact ih hfolder

/-- A node that is put where it is already changes nothing. -/
theorem put_eq_self (h : root.at? place = some new) : root.put place new = root := by
  induction place generalizing root with
  | nil =>
    rw [at?_nil] at h
    rw [put, Option.some.inj h]
  | cons first place ih =>
    obtain ⟨es, sub, rfl, hsub, hnew⟩ := exists_entry_of_at?_cons h
    rw [put, hsub, Option.getD_some, ih hnew, Table.insert_eq_self hsub]

/-- A changed entry changes nothing else in a folder. -/
theorem Keeps.entry {es : List (Text × Node)} {first : Text} {sub : Node}
    (hsub : ∀ old, Table.get? es first = some old → old.Keeps sub place) :
    (Node.folder es).Keeps (.folder (Table.insert es first sub)) (first :: place) where
  kinds names node h := by
    cases names with
    | nil =>
      obtain rfl := Option.some.inj h
      exact ⟨_, rfl, rfl⟩
    | cons n rest =>
      simp only [at?, Table.get?_insert] at h ⊢
      obtain ⟨old, hold, hnode⟩ := Option.bind_eq_some_iff.mp h
      by_cases hn : n = first
      · subst hn
        rw [if_pos rfl, Option.bind_some]
        exact (hsub old hold).kinds rest node hnode
      · rw [if_neg hn, hold, Option.bind_some]
        exact ⟨node, hnode, rfl⟩
  contents names content hne h := by
    cases names with
    | nil => exact nomatch h
    | cons n rest =>
      simp only [at?, Table.get?_insert] at h ⊢
      obtain ⟨old, hold, hnode⟩ := Option.bind_eq_some_iff.mp h
      by_cases hn : n = first
      · subst hn
        rw [if_pos rfl, Option.bind_some]
        exact (hsub old hold).contents rest content (fun e => hne (congrArg _ e)) hnode
      · rw [if_neg hn, hold, Option.bind_some]
        exact hnode

/-- A file in place of a file, or a new node, changes nothing else. -/
theorem keeps_put (h : root.at? place = some (.folder entries))
    (hnew : ∀ old, Table.get? entries name = some old → old.isFile = true ∧ new.isFile = true) :
    root.Keeps (root.put (place ++ [name]) new) (place ++ [name]) := by
  induction place generalizing root with
  | nil =>
    rw [at?_nil] at h
    obtain rfl := Option.some.inj h
    refine Keeps.entry fun old hold => ?_
    obtain ⟨hfile, hnewfile⟩ := hnew old hold
    cases old with
    | folder es => exact absurd hfile Bool.false_ne_true
    | file content =>
      constructor
      · intro names node hnode
        cases names with
        | nil =>
          obtain rfl := Option.some.inj hnode
          exact ⟨new, at?_nil new, hnewfile⟩
        | cons n rest => exact nomatch hnode
      · intro names content' hne hnode
        cases names with
        | nil => exact absurd rfl hne
        | cons n rest => exact nomatch hnode
  | cons first place ih =>
    obtain ⟨es, sub, rfl, hsub, hfolder⟩ := exists_entry_of_at?_cons h
    refine Keeps.entry fun old hold => ?_
    rw [hsub] at hold ⊢
    obtain rfl := Option.some.inj hold
    exact ih hfolder

/-- An empty folder that is put somewhere brings no file with it. -/
theorem at?_file_of_put_folder (h : root.at? place = some (.folder entries)) {names : List Text}
    {content : Bytes}
    (hfile : (root.put (place ++ [name]) (.folder [])).at? names = some (.file content)) :
    root.at? names = some (.file content) := by
  induction place generalizing root names with
  | nil =>
    rw [at?_nil] at h
    obtain rfl := Option.some.inj h
    cases names with
    | nil => exact nomatch hfile
    | cons n rest =>
      simp only [List.nil_append, put, at?, Table.get?_insert] at hfile ⊢
      by_cases hn : n = name
      · -- In the new folder there is nothing, and it is no file itself.
        rw [if_pos hn, Option.bind_some] at hfile
        cases rest with
        | nil => exact nomatch hfile
        | cons m rest => exact nomatch hfile
      · rw [if_neg hn] at hfile
        exact hfile
  | cons first place ih =>
    obtain ⟨es, sub, rfl, hsub, hfolder⟩ := exists_entry_of_at?_cons h
    cases names with
    | nil => exact nomatch hfile
    | cons n rest =>
      simp only [List.cons_append, put, at?, Table.get?_insert, hsub, Option.getD_some] at hfile ⊢
      by_cases hn : n = first
      · subst hn
        rw [if_pos rfl, Option.bind_some] at hfile
        rw [hsub, Option.bind_some]
        exact ih hfolder hfile
      · rw [if_neg hn] at hfile
        exact hfile

end Node

/-! ## Trails -/

namespace Trail

/-- Each node of a trail is the one that the names lead to. -/
def Valid (root : Node) : Trail → Prop
  | [] => True
  | (name, node) :: trail =>
    root.at? (names ((name, node) :: trail)) = some node ∧ Valid root trail

theorem valid_nil (root : Node) : Valid root [] := trivial

theorem names_cons (name : Text) (node : Node) (trail : Trail) :
    names ((name, node) :: trail) = names trail ++ [name] := by
  unfold names
  rw [List.map_cons, List.reverse_cons]

theorem names_tail (trail : Trail) : names trail.tail = (names trail).dropLast := by
  cases trail with
  | nil => rfl
  | cons entry trail => rw [names_cons, List.dropLast_concat, List.tail_cons]

theorem Valid.tail {root : Node} {trail : Trail} (h : trail.Valid root) :
    Valid root trail.tail := by
  cases trail with
  | nil => exact trivial
  | cons entry trail => exact h.2

/-- The names of a trail lead to its node. -/
theorem Valid.at?_names {root : Node} {trail : Trail} (h : trail.Valid root) :
    root.at? trail.names = some (trail.node root) := by
  cases trail with
  | nil => exact Node.at?_nil root
  | cons entry trail => exact h.1

/-- A trail goes on to an entry of its folder. -/
theorem Valid.cons {root : Node} {trail : Trail} {entries : List (Text × Node)} {name : Text}
    {node : Node} (h : trail.Valid root) (hfolder : trail.node root = .folder entries)
    (hnode : Table.get? entries name = some node) : Valid root ((name, node) :: trail) := by
  refine ⟨?_, h⟩
  rw [names_cons, Node.at?_append_singleton (h.at?_names.trans (congrArg some hfolder)), hnode]

end Trail

namespace FileTree

/-! ## Following -/

/-- **A path is followed piece by piece.** -/
theorem follow_append (root : Node) (trail : Trail) (pieces rest : List Text) :
    follow root trail (pieces ++ rest) =
      (follow root trail pieces).bind fun there => follow root there rest := by
  induction pieces generalizing trail with
  | nil => rfl
  | cons piece pieces ih =>
    simp only [List.cons_append, follow]
    split
    · rfl
    · split
      · exact ih trail
      · split
        · exact ih trail.tail
        · split
          · rfl
          · split
            · rfl
            · exact ih _

/-- **Following a path leads to nodes of the tree.** -/
theorem follow_valid {root : Node} {trail there : Trail} {pieces : List Text}
    (htrail : trail.Valid root) (h : follow root trail pieces = .ok there) : there.Valid root := by
  induction pieces generalizing trail with
  | nil =>
    obtain rfl := Except.ok.inj h
    exact htrail
  | cons piece pieces ih =>
    unfold follow at h
    split at h
    · exact nomatch h
    · next entries hfolder =>
      split at h
      · exact ih htrail h
      · split at h
        · exact ih htrail.tail h
        · split at h
          · exact nomatch h
          · split at h
            · exact nomatch h
            · next node hnode => exact ih (htrail.cons hfolder hnode) h

/-- **A tree that keeps another one is followed in the same way**: what could be followed leads to the
same place. -/
theorem follow_keeps {old new : Node} {place : List Text} (hkeeps : old.Keeps new place)
    {trail trail' there : Trail} {pieces : List Text} (htrail : trail.Valid old)
    (htrail' : trail'.Valid new) (hnames : trail'.names = trail.names)
    (h : follow old trail pieces = .ok there) :
    ∃ there', follow new trail' pieces = .ok there' ∧ there'.names = there.names := by
  induction pieces generalizing trail trail' with
  | nil =>
    obtain rfl := Except.ok.inj h
    exact ⟨trail', rfl, hnames⟩
  | cons piece pieces ih =>
    unfold follow at h
    split at h
    · exact nomatch h
    next entries hfolder =>
    obtain ⟨entries', hfolder'⟩ :=
      hkeeps.folder (htrail.at?_names.trans (congrArg some hfolder))
    have hnode' : trail'.node new = .folder entries' := by
      rw [← hnames, htrail'.at?_names] at hfolder'
      exact Option.some.inj hfolder'
    unfold follow
    rw [hnode']
    -- The cases are those of the code, and only the last one looks into the folder.
    by_cases hstay : piece = [] ∨ piece = (("." : Text))
    · simp only [if_pos hstay] at h ⊢
      exact ih htrail htrail' hnames h
    by_cases hup : piece = ((".." : Text))
    · simp only [if_neg hstay, if_pos hup] at h ⊢
      refine ih htrail.tail htrail'.tail ?_ h
      rw [Trail.names_tail, Trail.names_tail, hnames]
    by_cases hlong : maxName < byteLength piece
    · simp only [if_neg hstay, if_neg hup, if_pos hlong] at h
      exact nomatch h
    simp only [if_neg hstay, if_neg hup, if_neg hlong] at h ⊢
    split at h
    · exact nomatch h
    next node hnode =>
    have hat := htrail.cons hfolder hnode
    obtain ⟨node', hat', -⟩ := hkeeps.kinds _ node hat.1
    have hentry : Table.get? entries' piece = some node' := by
      rw [Trail.names_cons, Node.at?_append_singleton hfolder'] at hat'
      exact hat'
    rw [hentry]
    refine ih hat (htrail'.cons hnode' hentry) ?_ h
    rw [Trail.names_cons, Trail.names_cons, hnames]

end FileTree

end LitmusGraph
