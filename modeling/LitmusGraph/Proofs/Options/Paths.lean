import LitmusGraph.Options.Parser
import LitmusGraph.Proofs.Payload.Language
import LitmusGraph.Proofs.Text.Reading

/-!
# The paths that a command line names

A path that is read off a text has parts without slashes, and so its stem is a name without slashes.
The paths of a command line that was understood are all read off texts, because each switch that is
taken leaves it so.

Results:
* `Path.slash_not_mem_stem`: the stem of a path that is read off a text is a plain name.
* `take_readsPaths`, `consume_readsPaths`: what one switch and what all of them preserve.
* `readsPaths_of_parse`: the paths of a command line that was understood.
-/

namespace LitmusGraph

namespace Path

/-- The path is read off a text. -/
def IsRead (p : Path) : Prop := ∃ t, p = ofText t

theorem isRead_ofText (t : Text) : (ofText t).IsRead := ⟨t, rfl⟩

/-- The parts of a path that is read off a text are the pieces between its slashes. -/
theorem IsRead.slash_not_mem_parts {p : Path} (h : p.IsRead) {part : Text} (hpart : part ∈ p.parts) :
    ('/' : CodePoint) ∉ part := by
  obtain ⟨t, rfl⟩ := h
  exact Text.not_mem_of_mem_splitOn (List.mem_filter.mp hpart).1

theorem mem_name_of_mem_stem {p : Path} {c : CodePoint} (h : c ∈ p.stem) : c ∈ p.name := by
  unfold stem at h
  split at h
  · exact h
  · exact h
  · next hsome =>
    split at h
    · exact h
    · have hfront := List.dropLast_subset _ h
      rw [List.mem_reverse] at hfront
      exact List.mem_reverse.mp ((List.dropWhile_sublist _).subset hfront)
  · exact h

/-- **The stem of a path** that is read off a text is a plain name. -/
theorem IsRead.slash_not_mem_stem {p : Path} (h : p.IsRead) : ('/' : CodePoint) ∉ p.stem := by
  intro hmem
  have hname := mem_name_of_mem_stem hmem
  unfold name at hname
  cases hlast : p.parts.getLast? with
  | none => simp [hlast] at hname
  | some last =>
    rw [hlast] at hname
    exact h.slash_not_mem_parts (List.mem_of_getLast? hlast) hname

end Path

/-- The drawing goes to a path that is read off a text, if it goes to a file. -/
def Options.ReadsPath (options : Options) : Prop := ∀ path, options.output = .file path → path.IsRead

/-- The paths of a run that is asked for are read off texts. -/
def Parsed.ReadsPaths : Parsed → Prop
  | .help => True
  | .run input options => input.IsRead ∧ options.ReadsPath

namespace Options

/-- What a switch that is taken preserves: all paths are read off texts. -/
structure ReadsPaths (d : Draft) : Prop where
  input : ∀ path, d.input = some path → path.IsRead
  output : d.options.ReadsPath

theorem readsPaths_empty : ReadsPaths {} where
  input := nofun
  output := nofun

/-- **A switch that is taken** leaves paths that are read off texts. -/
theorem take_readsPaths {d after : Draft} {use : Use} (h : ReadsPaths d) (htake : take d use = .ok after) :
    ReadsPaths after := by
  obtain ⟨hinput, houtput⟩ := h
  unfold take at htake
  split at htake
  -- The payload file is the one path that is taken, and the file for the drawing the other one.
  case h_1 value =>
    obtain rfl := Except.ok.inj htake
    refine ⟨?_, houtput⟩
    rintro _ ⟨⟩
    exact Path.isRead_ofText _
  case h_4 value =>
    obtain rfl := Except.ok.inj htake
    refine ⟨hinput, fun path hpath => ?_⟩
    simp only at hpath
    split at hpath
    · exact nomatch hpath
    · obtain rfl := Destination.file.inj hpath
      exact Path.isRead_ofText _
  case h_2 value =>
    split at htake
    · obtain rfl := Except.ok.inj htake
      exact ⟨hinput, houtput⟩
    · split at htake
      · obtain rfl := Except.ok.inj htake
        exact ⟨hinput, houtput⟩
      · exact nomatch htake
  all_goals
    obtain rfl := Except.ok.inj htake
    exact ⟨hinput, houtput⟩

/-- Switches that are taken one after the other leave paths that are read off texts. -/
theorem foldlM_take_readsPaths {d after : Draft} {uses : List Use} (h : ReadsPaths d)
    (htake : uses.foldlM take d = .ok after) : ReadsPaths after := by
  induction uses generalizing d with
  | nil =>
    obtain rfl := Except.ok.inj htake
    exact h
  | cons use uses ih =>
    rw [List.foldlM_cons] at htake
    obtain ⟨d', hfirst, hrest⟩ := Payload.bind_eq_ok_iff.mp htake
    exact ih (take_readsPaths h hfirst) hrest

/-- Switches that are taken in one go ask for the help, or go on with what is behind them. -/
theorem readsPaths_of_uses {d : Draft} {help : Bool} {uses : List Use} {unknown : List Text}
    {rest : List (Text × Argument)} {parsed : Parsed} (h : ReadsPaths d)
    (hrest : ∀ {d'}, ReadsPaths d' → consume d' unknown rest = .ok parsed → parsed.ReadsPaths)
    (huses : (if help then return .help
      else do consume (← uses.foldlM take d) unknown rest : Except UsageError Parsed) = .ok parsed) :
    parsed.ReadsPaths := by
  split at huses
  · obtain rfl := Except.ok.inj huses
    trivial
  · obtain ⟨d', htake, hconsume⟩ := Payload.bind_eq_ok_iff.mp huses
    exact hrest (foldlM_take_readsPaths h htake) hconsume

/-- **All switches** leave paths that are read off texts. -/
theorem consume_readsPaths {parsed : Parsed} : ∀ (arguments : List (Text × Argument)) {d : Draft}
    {unknown : List Text}, ReadsPaths d → consume d unknown arguments = .ok parsed →
    parsed.ReadsPaths
  | [], d, unknown, h, hconsume => by
    unfold consume finish at hconsume
    split at hconsume
    · exact nomatch hconsume
    · next input hinput =>
      obtain rfl := Except.ok.inj hconsume
      exact ⟨h.input input hinput, h.output⟩
    · exact nomatch hconsume
  | (_, .operand) :: rest, _, _, h, hconsume => consume_readsPaths rest h hconsume
  | (_, .endMark) :: rest, _, _, h, hconsume => consume_readsPaths rest h hconsume
  | (_, .unknown) :: rest, _, _, h, hconsume => consume_readsPaths rest h hconsume
  | (_, .mention m) :: rest, d, unknown, h, hconsume => by
    unfold consume at hconsume
    obtain ⟨uses, -, hconsume⟩ := Payload.bind_eq_ok_iff.mp hconsume
    split at hconsume
    · exact readsPaths_of_uses h (consume_readsPaths rest) hconsume
    -- The last switch takes the argument behind it, if that is an operand.
    split at hconsume
    · exact readsPaths_of_uses h (consume_readsPaths _) hconsume
    · exact nomatch hconsume

/-- **The paths of a command line** that was understood are read off texts. -/
theorem readsPaths_of_parse {arguments : List Text} {input : Path} {options : Options}
    (h : parse arguments = .ok (.run input options)) : input.IsRead ∧ options.ReadsPath := by
  obtain ⟨sorted, -, hconsume⟩ := Payload.bind_eq_ok_iff.mp h
  exact consume_readsPaths sorted readsPaths_empty hconsume

end Options

end LitmusGraph
