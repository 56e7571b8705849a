import LitmusGraph.Proofs.Dot.Grammar
import LitmusGraph.Proofs.Drawing.Reading

/-!
# The tokens of a statement

A statement is a line of DOT text, and its tokens are those of a line of the grammar: names that are
tokens are words, and texts without quotes and backslashes fill a quoted string that is closed on the
same line.

Results:
* `Statement.Quotable`: the texts of a statement fit where they are put.
* `lex_toText`: the tokens of a statement.
-/

namespace LitmusGraph

namespace Text

/-- A text that can stand between quotes, on one line and as it is. -/
def IsQuotable (t : Text) : Prop :=
  ('"' : CodePoint) ∉ t ∧ ('\\' : CodePoint) ∉ t ∧ ('\n' : CodePoint) ∉ t

instance (t : Text) : Decidable t.IsQuotable := inferInstanceAs (Decidable (_ ∧ _ ∧ _))

end Text

namespace CodePoint

/-- Letters, digits and underscores are what words are made of. -/
theorem isPlain_of_isWord {c : CodePoint} (h : c.isWord = true) : Dot.Lexing.IsPlain c := by
  have hne {d : CodePoint} (hd : d.isWord = false) : c ≠ d := by
    rintro rfl
    exact absurd h (Bool.eq_false_iff.mp hd)
  refine ⟨hne (by decide), ?_, ?_⟩
  · unfold Dot.isBlank
    rw [decide_eq_false (hne (by decide)), decide_eq_false (hne (by decide))]
    rfl
  · unfold Dot.Token.ofMark?
    rw [if_neg (hne (by decide)), if_neg (hne (by decide)), if_neg (hne (by decide)),
      if_neg (hne (by decide)), if_neg (hne (by decide)), if_neg (hne (by decide)),
      if_neg (hne (by decide))]

end CodePoint

theorem Text.IsToken.isPlain {t : Text} (h : t.IsToken) : ∀ c ∈ t, Dot.Lexing.IsPlain c :=
  fun c hc => CodePoint.isPlain_of_isWord (h.2 c hc)

namespace EdgeStyle

theorem isToken_color : ∀ s ∈ all, s.color.IsToken := by decide

/-- All that a style can add is that its edges take part in ranking. -/
theorem extra_eq : ∀ s ∈ all,
    s.extra = if !s.extra.isEmpty then (",constraint=true" : Text) else [] := by decide

end EdgeStyle

namespace Statement

open Dot Dot.Lexing

/-! ## Tokens -/

/-- The label of a node: the label of its event, and its value on a line of its own if it has one. -/
def labelText (label : Text) : Option Text → Text
  | none => label
  | some value => label ++ "\\l" ++ value

/-- The tokens of a statement. -/
def tokens : Statement → List Token
  | openGraph => graphOpening
  | initial => initialLine
  | openCluster thread => boxOpening (Text.ofInt thread)
  | clusterLabel thread => boxTitle (Text.ofInt thread)
  | clusterStyle => boxStyle
  | clusterColor => boxColor
  | node name label value => nodeLine name (labelText label value)
  | chain names => chainLine names
  | closeCluster | closeGraph => [.closeBrace]
  | anchor target => anchorLine target
  | arrow relation source target =>
    let style := EdgeStyle.ofRelation relation
    edgeLine source target style.color relation (!style.extra.isEmpty)

/-- The texts of a statement fit where they are put: nodes are tokens, and labels, values and
relations can stand between quotes. -/
def Quotable : Statement → Prop
  | node name label value => name.IsToken ∧ label.IsQuotable ∧ ∀ v ∈ value, v.IsQuotable
  | chain names => ∀ name ∈ names, name.IsToken
  | anchor target => target.IsToken
  | arrow relation source target => relation.IsQuotable ∧ source.IsToken ∧ target.IsToken
  | _ => True

/-! ## Reading a statement -/

/-- A line whose reading ends between two tokens. -/
theorem lex_of_reads {line : Text} {ts : List Token} (h : Reads start line ⟨ts.reverse, .word []⟩) :
    lex line = some ts := by
  rw [h.lex_eq]
  exact congrArg some ts.reverse_reverse

theorem reads_indent : Reads start "    " start := rfl

theorem reads_arrow (ts : List Token) : Reads ⟨ts, .word []⟩ " -> " ⟨Dot.arrow :: ts, .word []⟩ := rfl

/-- A name is read as a word if another kind of code point follows it. -/
theorem reads_token {ts : List Token} {t : Text} (h : t.IsToken) {c : CodePoint} {rest : Text}
    {s : Lexing} (hc : ¬ IsPlain c) (hrest : Reads ⟨.word t :: ts, .word []⟩ (c :: rest) s) :
    Reads ⟨ts, .word []⟩ (t ++ c :: rest) s :=
  (Reads.word ts h.isPlain []).append (Reads.wordEnd h.1 hc hrest)

theorem reads_labelText (ts : List Token) {label : Text} {value : Option Text}
    (hlabel : label.IsQuotable) (hvalue : ∀ v ∈ value, v.IsQuotable) :
    Reads ⟨ts, .quoted []⟩ (labelText label value) ⟨ts, .quoted (labelText label value)⟩ := by
  have hread := Reads.quoted ts hlabel.1 hlabel.2.1 []
  cases value with
  | none => exact hread
  | some v =>
    have hv := hvalue v rfl
    -- The backslash takes the letter behind it along, and both are part of the string.
    have hbreak : Reads ⟨ts, .quoted label⟩ "\\l" ⟨ts, .quoted (label ++ ("\\l" : Text))⟩ := by
      have hbody : label ++ ("\\l" : Text) = label ++ [('\\' : CodePoint)] ++ [('l' : CodePoint)] := by
        rw [List.append_assoc]
        rfl
      rw [hbody]
      rfl
    exact (hread.append hbreak).append (Reads.quoted ts hv.1 hv.2.1 _)

theorem lex_node {name label : Text} {value : Option Text} (h : (node name label value).Quotable) :
    lex (toText (node name label value)) = some (node name label value).tokens := by
  obtain ⟨hname, hlabel, hvalue⟩ := h
  have hline : toText (node name label value) = ("    " : Text) ++
      (name ++ (" [shape=box,label=\"" ++ (labelText label value ++ ("\"];" : Text)))) := by
    cases value <;> simp only [toText, labelText, List.append_assoc]
  have hopen : Reads ⟨[.word name], .word []⟩ " [shape=box,label=\""
      ⟨[.equals, .word "label", .comma, .word "box", .equals, .word "shape", .openBracket, .word name],
        .quoted []⟩ := rfl
  rw [hline]
  refine lex_of_reads (reads_indent.append (reads_token hname (c := ' ') (by decide) ?_))
  exact hopen.append ((reads_labelText _ hlabel hvalue).append rfl)

/-- The names of a chain with arrows between them. -/
theorem reads_join_arrow : ∀ {names : List Text}, (∀ name ∈ names, name.IsToken) →
    ∀ ts, Reads ⟨ts, .word []⟩ (Text.join " -> " names ++ (";" : Text))
      ⟨(chainLine names).reverse ++ ts, .word []⟩
  | [], _, ts => rfl
  | [name], h, ts => by
    have hjoin : Text.join " -> " [name] = name := List.intercalate_singleton
    rw [hjoin]
    exact reads_token (h name List.mem_cons_self) (c := ';') (by decide) rfl
  | name :: next :: names, h, ts => by
    have hjoin : Text.join " -> " (name :: next :: names) ++ (";" : Text) =
        name ++ (" -> " ++ (Text.join " -> " (next :: names) ++ (";" : Text))) := by
      rw [Text.join, List.intercalate_cons_cons, List.append_assoc, List.append_assoc]
      rfl
    have hreverse : (chainLine (name :: next :: names)).reverse ++ ts =
        (chainLine (next :: names)).reverse ++ (Dot.arrow :: .word name :: ts) := by
      show (Token.word name :: Dot.arrow :: chainLine (next :: names)).reverse ++ ts = _
      rw [List.reverse_cons, List.reverse_cons, List.append_assoc, List.append_assoc]
      rfl
    rw [hjoin, hreverse]
    refine reads_token (h name List.mem_cons_self) (c := ' ') (by decide) ?_
    exact (reads_arrow _).append (reads_join_arrow (fun n hn => h n (List.mem_cons_of_mem name hn)) _)

theorem lex_chain {names : List Text} (h : (chain names).Quotable) :
    lex (toText (chain names)) = some (chain names).tokens := by
  have hline : toText (chain names) =
      ("    " : Text) ++ (Text.join " -> " names ++ (";" : Text)) := by
    simp only [toText, List.append_assoc]
  have hread := reads_join_arrow h []
  rw [List.append_nil] at hread
  rw [hline]
  exact lex_of_reads (reads_indent.append hread)

/-- The number of a thread is part of a word. -/
theorem isPlain_of_mem_ofInt (thread : Int) : ∀ c ∈ Text.ofInt thread, IsPlain c := by
  intro c hc
  rcases Text.mem_ofInt hc with rfl | hdigit
  · decide
  · refine CodePoint.isPlain_of_isWord ?_
    unfold CodePoint.isWord
    rw [hdigit]
    rfl

theorem lex_openCluster (thread : Int) :
    lex (toText (openCluster thread)) = some (openCluster thread).tokens := by
  have hopen : Reads start "  subgraph cluster" ⟨[.word "subgraph"], .word "cluster"⟩ := rfl
  have hnumber := Reads.word [.word "subgraph"] (isPlain_of_mem_ofInt thread) "cluster"
  exact lex_of_reads ((hopen.append hnumber).append rfl)

theorem lex_clusterLabel (thread : Int) :
    lex (toText (clusterLabel thread)) = some (clusterLabel thread).tokens := by
  have hquote : ('"' : CodePoint) ∉ Text.ofInt thread := fun hmem =>
    (Text.mem_ofInt hmem).elim (by decide) (by decide)
  have hslash : ('\\' : CodePoint) ∉ Text.ofInt thread := fun hmem =>
    (Text.mem_ofInt hmem).elim (by decide) (by decide)
  have hopen : Reads start "    label=\"Thread #" ⟨[.equals, .word "label"], .quoted "Thread #"⟩ := rfl
  exact lex_of_reads ((hopen.append (Reads.quoted _ hquote hslash _)).append rfl)

/-- The two nodes of an edge. -/
theorem reads_ends {source target rest : Text} {s : Lexing} (hsource : source.IsToken)
    (htarget : target.IsToken)
    (hrest : Reads ⟨[.word target, Dot.arrow, .word source], .word []⟩ ((' ' : CodePoint) :: rest) s) :
    Reads start (("  " : Text) ++ (source ++ (" -> " ++ (target ++ (' ' : CodePoint) :: rest)))) s := by
  have hindent : Reads start "  " start := rfl
  refine hindent.append (reads_token hsource (c := ' ') (by decide) ?_)
  exact (reads_arrow _).append (reads_token htarget (by decide) hrest)

theorem lex_anchor {target : Text} (h : (anchor target).Quotable) :
    lex (toText (anchor target)) = some (anchor target).tokens := by
  have hline : toText (anchor target) = ("  " : Text) ++
      (initialNode ++ (" -> " ++ (target ++ (" [style=invis,constraint=true]" : Text)))) := by
    simp only [toText, List.append_assoc]
  have hinitial : initialNode.IsToken := by decide
  rw [hline]
  exact lex_of_reads (reads_ends hinitial h rfl)

/-- The label of an edge, up to the second colour. -/
theorem reads_relation (ts : List Token) {relation rest : Text} {s : Lexing}
    (h : relation.IsQuotable)
    (hrest : Reads ⟨.equals :: .word "fontcolor" :: .comma :: .quoted (("  " : Text) ++ relation ++ "  ")
      :: .equals :: .word "label" :: .comma :: ts, .word []⟩ rest s) :
    Reads ⟨ts, .word []⟩ ((",label=\"" : Text) ++
      ((("  " : Text) ++ relation ++ "  ") ++ ("\",fontcolor=" ++ rest))) s := by
  have hquote : ('"' : CodePoint) ∉ ("  " : Text) ++ relation ++ "  " := by
    simp only [List.mem_append, not_or]
    exact ⟨⟨by decide, h.1⟩, by decide⟩
  have hslash : ('\\' : CodePoint) ∉ ("  " : Text) ++ relation ++ "  " := by
    simp only [List.mem_append, not_or]
    exact ⟨⟨by decide, h.2.1⟩, by decide⟩
  have hopen : Reads ⟨ts, .word []⟩ ",label=\""
      ⟨.equals :: .word "label" :: .comma :: ts, .quoted []⟩ := rfl
  have hclose (body : Text) : Reads ⟨.equals :: .word "label" :: .comma :: ts, .quoted body⟩
      "\",fontcolor=" ⟨.equals :: .word "fontcolor" :: .comma :: .quoted body :: .equals ::
        .word "label" :: .comma :: ts, .word []⟩ := rfl
  exact hopen.append ((Reads.quoted _ hquote hslash []).append ((hclose _).append hrest))

/-- The second colour of an edge, and whether the edge takes part in ranking. -/
theorem reads_constraint {color : Text} (h : color.IsToken) (constrained : Bool) (ts : List Token) :
    Reads ⟨ts, .word []⟩
      (color ++ ((if constrained then (",constraint=true" : Text) else []) ++ ("]" : Text)))
      ⟨.closeBracket :: (if constrained then
        [.word "true", .equals, .word "constraint", .comma] else []) ++ .word color :: ts,
        .word []⟩ := by
  cases constrained with
  | true => exact reads_token h (c := ',') (by decide) rfl
  | false => exact reads_token h (c := ']') (by decide) rfl

theorem lex_arrowText {style : EdgeStyle} (hcolor : style.color.IsToken) (constrained : Bool)
    (hextra : style.extra = if constrained then (",constraint=true" : Text) else [])
    {relation source target : Text} (hrelation : relation.IsQuotable) (hsource : source.IsToken)
    (htarget : target.IsToken) :
    lex (arrowText relation source target style) =
      some (edgeLine source target style.color relation constrained) := by
  have hline : arrowText relation source target style = ("  " : Text) ++ (source ++ (" -> " ++
      (target ++ (" [color=" ++ (style.color ++ (",label=\"" ++ ((("  " : Text) ++ relation ++ "  ") ++
        ("\",fontcolor=" ++ (style.color ++ (style.extra ++ ("]" : Text))))))))))) := by
    simp only [arrowText, List.append_assoc]
    rfl
  have hopen (ts : List Token) : Reads ⟨ts, .word []⟩ " [color="
      ⟨.equals :: .word "color" :: .openBracket :: ts, .word []⟩ := rfl
  have hattributes (ts : List Token) := (hopen ts).append (reads_token hcolor (c := ',') (by decide)
    (reads_relation _ hrelation (reads_constraint hcolor constrained _)))
  rw [hline, hextra]
  refine lex_of_reads (reads_ends hsource htarget ?_)
  cases constrained with
  | true => exact hattributes _
  | false => exact hattributes _

/-- **The tokens of a statement** are those of its line. -/
theorem lex_toText {s : Statement} (h : s.Quotable) : lex s.toText = some s.tokens := by
  cases s with
  | openGraph | initial | clusterStyle | clusterColor | closeCluster | closeGraph => rfl
  | openCluster thread => exact lex_openCluster thread
  | clusterLabel thread => exact lex_clusterLabel thread
  | node name label value => exact lex_node h
  | chain names => exact lex_chain h
  | anchor target => exact lex_anchor h
  | arrow relation source target =>
    have hstyle := EdgeStyle.ofRelation_mem_all relation
    exact lex_arrowText (EdgeStyle.isToken_color _ hstyle) _ (EdgeStyle.extra_eq _ hstyle) h.1 h.2.1 h.2.2

theorem Quotable.legible {s : Statement} (h : s.Quotable) : s.Legible := by
  cases s with
  | node name label value => exact ⟨h.1, h.2.1.2.2, h.2.1.2.1, fun v hv => (h.2.2 v hv).2.2⟩
  | chain names => exact h
  | anchor target => exact h
  | arrow relation source target => exact ⟨h.1.2.2, h.2⟩
  | _ => exact trivial

end Statement

end LitmusGraph
