import LitmusGraph.Drawing.DrawList
import LitmusGraph.Proofs.Text.Blank
import LitmusGraph.Proofs.Text.Reading

/-!
# The normal form of a draw list

A draw list may be written with blanks around its names and with entries that name nothing. All such
texts are read as the names alone, and the names with commas between them are the one way to write
them with nothing else. Commas separate whatever stands on either side: what is read of a text is what
is read of its parts.

Results:
* `ofText_comma`: the parts on either side of a comma are read on their own.
* `isName_of_mem_ofText`: what the names that are read look like.
* `ofText_of_spells`, `exists_spells_ofText`: **which texts are read as given names**.
* `drawList_normal_form`: the normal form of a draw list.
-/

namespace LitmusGraph

namespace DrawList

/-- A name of a relation as a draw list can hold it. -/
structure IsName (name : Text) : Prop where
  ne_nil : name ≠ []
  comma_not_mem : (',' : CodePoint) ∉ name
  strip_eq : name.strip = name

/-- Entries spell out names in their order: each entry is blank, or has blanks around a name. -/
inductive Spells : List Text → List Text → Prop where
  /-- No entries. -/
  | nil : Spells [] []
  /-- An entry that names nothing. -/
  | blank {entry : Text} {entries names : List Text} (hentry : entry.IsBlank)
    (rest : Spells entries names) : Spells (entry :: entries) names
  /-- A name, perhaps with blanks around it. -/
  | name {lead name tail : Text} {entries names : List Text} (hlead : lead.IsBlank)
    (hname : IsName name) (htail : tail.IsBlank) (rest : Spells entries names) :
    Spells ((lead ++ name ++ tail) :: entries) (name :: names)

/-! ## Reading part by part -/

/-- **The parts on either side of a comma** are read on their own. -/
theorem ofText_comma (a b : Text) : ofText (a ++ "," ++ b) = ofText a ++ ofText b := by
  have hcomma : a ++ "," ++ b = a ++ (',' : CodePoint) :: b := List.append_assoc ..
  unfold ofText
  rw [hcomma, List.splitOn_append_cons_self, List.map_append, List.filter_append]

/-- Entries are read one after the other. -/
theorem ofText_toText_cons (entry : Text) (entries : List Text) :
    ofText (toText (entry :: entries)) = ofText entry ++ ofText (toText entries) := by
  cases entries with
  | nil =>
    have hone : toText [entry] = entry := ("," : Text).intercalate_singleton
    rw [hone]
    exact (List.append_nil _).symm
  | cons next entries =>
    have hjoin : toText (entry :: next :: entries) = entry ++ "," ++ toText (next :: entries) :=
      List.intercalate_cons_cons
    rw [hjoin, ofText_comma]

/-! ## Reading an entry -/

theorem comma_not_mem_of_isBlank {t : Text} (h : t.IsBlank) : (',' : CodePoint) ∉ t :=
  fun hmem => absurd (h _ hmem) (by decide)

/-- A text without commas is an entry. -/
theorem ofText_of_comma_not_mem {entry : Text} (h : (',' : CodePoint) ∉ entry) :
    ofText entry = [entry.strip].filter (!·.isEmpty) := by
  unfold ofText
  rw [List.splitOn_eq_singleton h]
  rfl

theorem ofText_of_isBlank {entry : Text} (h : entry.IsBlank) : ofText entry = [] := by
  rw [ofText_of_comma_not_mem (comma_not_mem_of_isBlank h), Text.strip_eq_nil_iff.mpr h]
  rfl

theorem ofText_padded {lead name tail : Text} (hlead : lead.IsBlank) (hname : IsName name)
    (htail : tail.IsBlank) : ofText (lead ++ name ++ tail) = [name] := by
  have hcomma : (',' : CodePoint) ∉ lead ++ name ++ tail := by
    simp only [List.mem_append, not_or]
    exact ⟨⟨comma_not_mem_of_isBlank hlead, hname.comma_not_mem⟩, comma_not_mem_of_isBlank htail⟩
  rw [ofText_of_comma_not_mem hcomma, Text.strip_append hlead htail, hname.strip_eq,
    List.filter_cons_of_pos (by simpa using hname.ne_nil)]
  rfl

/-- What is left of an entry without the blanks around it is a name, if anything is left. -/
theorem isName_strip {entry : Text} (hcomma : (',' : CodePoint) ∉ entry) (h : entry.strip ≠ []) :
    IsName entry.strip where
  ne_nil := h
  comma_not_mem := fun hmem => hcomma (Text.mem_of_mem_strip hmem)
  strip_eq := entry.strip_strip

/-- **What is read are names.** -/
theorem isName_of_mem_ofText {t name : Text} (h : name ∈ ofText t) : IsName name := by
  obtain ⟨hmem, hne⟩ := List.mem_filter.mp h
  obtain ⟨entry, hentry, rfl⟩ := List.mem_map.mp hmem
  exact isName_strip (Text.not_mem_of_mem_splitOn hentry) (by simpa using hne)

/-! ## Which texts are read as given names -/

/-- Entries are read as the names that they spell out. -/
theorem ofText_of_spells {entries names : List Text} (h : Spells entries names) :
    ofText (toText entries) = names := by
  induction h with
  | nil => rfl
  | blank hentry _ ih => rw [ofText_toText_cons, ofText_of_isBlank hentry, ih, List.nil_append]
  | name hlead hname htail _ ih =>
    rw [ofText_toText_cons, ofText_padded hlead hname htail, ih, List.singleton_append]

theorem spells_of_comma_not_mem : ∀ {entries : List Text}, (∀ entry ∈ entries, (',' : CodePoint) ∉ entry) →
    Spells entries ((entries.map Text.strip).filter (!·.isEmpty))
  | [], _ => .nil
  | entry :: entries, h => by
    obtain ⟨hentry, hentries⟩ := List.forall_mem_cons.mp h
    have hrest := spells_of_comma_not_mem hentries
    rw [List.map_cons]
    by_cases hstrip : entry.strip = []
    · rw [List.filter_cons_of_neg (by simpa using hstrip)]
      exact .blank (Text.strip_eq_nil_iff.mp hstrip) hrest
    · rw [List.filter_cons_of_pos (by simpa using hstrip)]
      obtain ⟨lead, tail, hlead, htail, hsplit⟩ := Text.exists_eq_append_strip entry
      have hspells := Spells.name hlead (isName_strip hentry hstrip) htail hrest
      rwa [← hsplit] at hspells

/-- **Every text is made of entries** that spell out the names read of it. -/
theorem exists_spells_ofText (t : Text) : ∃ entries, Spells entries (ofText t) ∧ t = toText entries :=
  ⟨List.splitOn (',' : CodePoint) t,
    spells_of_comma_not_mem fun _ => Text.not_mem_of_mem_splitOn,
    (List.intercalate_splitOn (',' : CodePoint)).symm⟩

/-- Names spell out themselves. -/
theorem spells_self : ∀ {names : List Text}, (∀ name ∈ names, IsName name) → Spells names names
  | [], _ => .nil
  | name :: names, h => by
    obtain ⟨hname, hnames⟩ := List.forall_mem_cons.mp h
    have hblank : Text.IsBlank [] := List.forall_mem_nil _
    have hspells := Spells.name hblank hname hblank (spells_self hnames)
    rwa [List.append_nil] at hspells

/-- **The normal form of a draw list.** What stands on either side of a comma is read on its own. What
is read are names, and names joined with commas are read as they are, with their order and as often as
they come. Blanks around the names and blank entries between them change nothing, and every text is of
that kind. So what is read of any text is read again if it is written. -/
theorem drawList_normal_form :
    (∀ a b, ofText (a ++ "," ++ b) = ofText a ++ ofText b) ∧
      (∀ t, ∀ name ∈ ofText t, IsName name) ∧
      (∀ names, (∀ name ∈ names, IsName name) → ofText (toText names) = names) ∧
      (∀ entries names, Spells entries names → ofText (toText entries) = names) ∧
      (∀ t, ∃ entries, Spells entries (ofText t) ∧ t = toText entries) ∧
      ∀ t, ofText (toText (ofText t)) = ofText t := by
  have hnames : ∀ names, (∀ name ∈ names, IsName name) → ofText (toText names) = names :=
    fun names h => ofText_of_spells (spells_self h)
  exact ⟨ofText_comma, fun _ _ => isName_of_mem_ofText, hnames, fun _ _ => ofText_of_spells,
    exists_spells_ofText, fun t => hnames (ofText t) fun _ => isName_of_mem_ofText⟩

/-- Three names, one of them with a space inside and one of them twice, between blanks and blank
entries. -/
theorem drawList_normal_form_padded :
    Spells [" rf ", "", "po loc", "\t ", "rf"] ["rf", "po loc", "rf"] ∧
      ofText " rf ,,po loc,\t ,rf" = ["rf", "po loc", "rf"] ∧
      ofText "rf,po loc,rf" = ["rf", "po loc", "rf"] := by
  have hspace : Text.IsBlank " " := by decide
  have hnone : Text.IsBlank [] := by decide
  have hrf : IsName "rf" := ⟨by decide, by decide, by decide⟩
  have hpoLoc : IsName "po loc" := ⟨by decide, by decide, by decide⟩
  have hspells : Spells [" rf ", "", "po loc", "\t ", "rf"] ["rf", "po loc", "rf"] :=
    .name hspace hrf hspace <| .blank hnone <| .name hnone hpoLoc hnone <| .blank (by decide) <|
      .name hnone hrf hnone .nil
  obtain ⟨-, -, hnames, hentries, -⟩ := drawList_normal_form
  refine ⟨hspells, hentries _ _ hspells, hnames ["rf", "po loc", "rf"] ?_⟩
  simp only [List.forall_mem_cons]
  exact ⟨hrf, hpoLoc, hrf, List.forall_mem_nil _⟩

end DrawList

end LitmusGraph
