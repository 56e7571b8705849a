import LitmusGraph.Drawing.Basic
import LitmusGraph.Proofs.Text.Reading

/-!
# Reading a drawing back

Nothing is escaped in a drawing, so not every text in it can be told from what stands around it.
`Statement.Legible` says when a statement can: nodes are tokens, the label of a node holds no
backslash, and no text holds a line feed. `Statement.ofLine` reads a line: the blanks in front and
the first word tell the kind of the statement, and what follows its parts.

Results:
* `lineFeed_not_mem_toText`: a statement is one line if its texts are.
* `ofLine_toText`: a legible statement is read back from its line.
* `ofText_unlines`: a drawing of legible statements is read back from its text.
-/

namespace LitmusGraph

/-! ## Styles by their colour -/

namespace EdgeStyle

/-- Every style that a relation can have. -/
def all : List EdgeStyle := default :: table.map Prod.snd

/-- The style of a colour. -/
def ofColor (color : Text) : EdgeStyle := (all.find? fun s => s.color = color).getD default

theorem ofRelation_mem_all (name : Text) : ofRelation name ∈ all := by
  unfold ofRelation
  cases h : table.get? name with
  | none => exact List.mem_cons_self
  | some s => exact List.mem_cons_of_mem _ (List.mem_map_of_mem (Table.mem_of_get? h))

/-- No two styles share a colour. -/
theorem ofColor_color : ∀ s ∈ all, ofColor s.color = s := by decide

theorem comma_not_mem_color : ∀ s ∈ all, (',' : CodePoint) ∉ s.color := by decide

theorem lineFeed_not_mem_style : ∀ s ∈ all, ('\n' : CodePoint) ∉ s.color ++ s.extra := by decide

end EdgeStyle

namespace Statement

/-! ## Legible statements -/

/-- The texts of a statement can be told from what stands around them. -/
def Legible : Statement → Prop
  | node name label value =>
    name.IsToken ∧ ('\n' : CodePoint) ∉ label ∧ ('\\' : CodePoint) ∉ label ∧
      ∀ v ∈ value, ('\n' : CodePoint) ∉ v
  | chain names => ∀ name ∈ names, name.IsToken
  | anchor target => target.IsToken
  | arrow relation source target =>
    ('\n' : CodePoint) ∉ relation ∧ source.IsToken ∧ target.IsToken
  | _ => True

/-! ## Reading a line -/

/-- The relation that the attributes of an edge name. The colour tells the style, and the style what
stands behind the name. -/
def relationOf (attributes : Text) : Text :=
  let color : Text := (attributes.drop (" [color=" : Text).length).takeWhile (· ≠ (',' : CodePoint))
  Text.between (" [color=" ++ color ++ ",label=\"  ")
    ("  \",fontcolor=" ++ color ++ (EdgeStyle.ofColor color).extra ++ "]") attributes

/-- Reads the node of an event from what follows its name. -/
def ofNodeRest (name rest : Text) : Statement :=
  let texts := Text.between " [shape=box,label=\"" "\"];" rest
  match Text.cut? '\\' texts with
  | none => node name texts none
  | some (label, value) => node name label (some (value.drop 1))

/-- Reads a statement inside the box of a thread from its first word and the rest. -/
def ofBoxLine (word rest : Text) : Statement :=
  if rest.head? = some ('=' : CodePoint) then
    if word = (("label" : Text)) then clusterLabel (Text.between "=\"Thread #" "\"" rest).toInt
    else if word = (("style" : Text)) then clusterStyle
    else clusterColor
  else if (" [" : Text).isPrefixOf rest then ofNodeRest word rest
  else chain (Text.tokens (word ++ rest.dropLast))

/-- Reads an edge from its source and what follows the arrow. -/
def ofEdgeRest (source rest : Text) : Statement :=
  let target := rest.takeWhile CodePoint.isWord
  let attributes := rest.dropWhile CodePoint.isWord
  if (" [s" : Text).isPrefixOf attributes then anchor target
  else arrow (relationOf attributes) source target

/-- Reads a statement outside all boxes from its first word and the rest. -/
def ofGraphLine (word rest : Text) : Statement :=
  if word = [] then closeCluster
  else if (" -" : Text).isPrefixOf rest then ofEdgeRest word (rest.drop (" -> " : Text).length)
  else if (" [" : Text).isPrefixOf rest then initial
  else openCluster (Text.between " cluster" " \x7b" rest).toInt

/-- Reads a statement from the number of blanks in front of it, its first word and the rest. -/
def ofParts (blanks : Nat) (word rest : Text) : Statement :=
  if blanks = 0 then if word = [] then closeGraph else openGraph
  else if blanks = 2 then ofGraphLine word rest
  else ofBoxLine word rest

/-- The statement that a line is read as. -/
def ofLine (line : Text) : Statement :=
  let body := line.dropWhile (· = (' ' : CodePoint))
  ofParts (line.takeWhile (· = (' ' : CodePoint))).length (body.takeWhile CodePoint.isWord)
    (body.dropWhile CodePoint.isWord)

/-- A line falls in one way into blanks, a token and a rest. -/
theorem ofLine_append {blanks word rest : Text} (hblanks : ∀ c ∈ blanks, c = (' ' : CodePoint))
    (hword : word.IsToken) (hrest : rest.takeWhile CodePoint.isWord = []) :
    ofLine (blanks ++ (word ++ rest)) = ofParts blanks.length word rest := by
  have hall : ∀ c ∈ blanks, decide (c = (' ' : CodePoint)) = true := fun c hc =>
    decide_eq_true (hblanks c hc)
  have hstop : (word ++ rest).takeWhile (· = (' ' : CodePoint)) = [] := by
    obtain ⟨c, w, rfl⟩ := List.exists_cons_of_ne_nil hword.1
    refine List.takeWhile_cons_of_neg fun h => ?_
    have hc : c = (' ' : CodePoint) := of_decide_eq_true h
    exact hword.not_mem (c := c) (by rw [hc]; decide) List.mem_cons_self
  unfold ofLine
  simp only
  rw [Text.takeWhile_append_of_stop hall hstop, Text.dropWhile_append_of_stop hall hstop,
    Text.takeWhile_append_of_stop hword.2 hrest, Text.dropWhile_append_of_stop hword.2 hrest]

theorem ofLine_graph {word rest : Text} (hword : word.IsToken)
    (hrest : rest.takeWhile CodePoint.isWord = []) :
    ofLine (("  " : Text) ++ (word ++ rest)) = ofGraphLine word rest :=
  ofLine_append (by decide) hword hrest

theorem ofLine_box {word rest : Text} (hword : word.IsToken)
    (hrest : rest.takeWhile CodePoint.isWord = []) :
    ofLine (("    " : Text) ++ (word ++ rest)) = ofBoxLine word rest :=
  ofLine_append (by decide) hword hrest

/-! ## Each statement is read back from its line -/

theorem ofLine_node {name label : Text} {value : Option Text} (hname : name.IsToken)
    (hlabel : ('\\' : CodePoint) ∉ label) :
    ofLine (toText (node name label value)) = node name label value := by
  cases value with
  | none =>
    have hline : toText (node name label none) =
        ("    " : Text) ++ (name ++ (" [shape=box,label=\"" ++ (label ++ ("\"];" : Text)))) := by
      simp only [toText, List.append_assoc]
    rw [hline, ofLine_box hname rfl]
    show ofNodeRest name _ = _
    unfold ofNodeRest
    simp only
    rw [Text.between_append, Text.cut?_eq_none hlabel]
  | some value =>
    have hline : toText (node name label (some value)) = ("    " : Text) ++
        (name ++ (" [shape=box,label=\"" ++ ((label ++ ("\\l" ++ value)) ++ ("\"];" : Text)))) := by
      simp only [toText, List.append_assoc]
    have hcut : Text.cut? '\\' (label ++ ("\\l" ++ value)) =
        some (label, ('l' : CodePoint) :: value) :=
      Text.cut?_append hlabel _
    rw [hline, ofLine_box hname rfl]
    show ofNodeRest name _ = _
    unfold ofNodeRest
    simp only
    rw [Text.between_append, hcut]
    rfl

theorem ofLine_chain {names : List Text} (h : ∀ name ∈ names, name.IsToken) :
    ofLine (toText (chain names)) = chain names := by
  cases names with
  | nil => rfl
  | cons name names =>
    have hname := h name List.mem_cons_self
    -- What follows the first name starts with an arrow or with the semicolon.
    obtain ⟨tail, hjoin, hbox⟩ : ∃ tail : Text, Text.join " -> " (name :: names) = name ++ tail ∧
        (tail ++ (";" : Text)).takeWhile CodePoint.isWord = [] ∧
        ofBoxLine name (tail ++ (";" : Text)) =
          chain (Text.tokens (name ++ (tail ++ (";" : Text)).dropLast)) := by
      cases names with
      | nil => exact ⟨[], by rw [Text.join, List.intercalate_singleton, List.append_nil], rfl, rfl⟩
      | cons next names =>
        refine ⟨" -> " ++ Text.join " -> " (next :: names), ?_, rfl, rfl⟩
        rw [Text.join, List.intercalate_cons_cons, List.append_assoc]
        rfl
    have hline : toText (chain (name :: names)) =
        ("    " : Text) ++ (name ++ (tail ++ (";" : Text))) := by
      simp only [toText, hjoin, List.append_assoc]
    have hlast : (tail ++ (";" : Text)).dropLast = tail := List.dropLast_concat
    rw [hline, ofLine_box hname hbox.1, hbox.2, hlast, ← hjoin, Text.tokens_join_arrow h]

theorem ofLine_openCluster (thread : Int) :
    ofLine (toText (openCluster thread)) = openCluster thread := by
  have hline : toText (openCluster thread) =
      ("  " : Text) ++
        (("subgraph" : Text) ++ (" cluster" ++ (Text.ofInt thread ++ (" \x7b" : Text)))) := by
    simp only [toText, List.append_assoc]
    rfl
  rw [hline, ofLine_graph (by decide) rfl]
  show openCluster (Text.between " cluster" " \x7b" _).toInt = _
  rw [Text.between_append, Text.toInt_ofInt]

theorem ofLine_clusterLabel (thread : Int) :
    ofLine (toText (clusterLabel thread)) = clusterLabel thread := by
  have hline : toText (clusterLabel thread) =
      ("    " : Text) ++
        (("label" : Text) ++ ("=\"Thread #" ++ (Text.ofInt thread ++ ("\"" : Text)))) := by
    simp only [toText, List.append_assoc]
    rfl
  rw [hline, ofLine_box (by decide) rfl]
  show clusterLabel (Text.between "=\"Thread #" "\"" _).toInt = _
  rw [Text.between_append, Text.toInt_ofInt]

theorem ofGraphLine_arrow {source : Text} (h : source.IsToken) (rest : Text) :
    ofGraphLine source (" -> " ++ rest) = ofEdgeRest source rest := by
  unfold ofGraphLine
  rw [if_neg h.1]
  rfl

theorem ofLine_anchor {target : Text} (h : target.IsToken) :
    ofLine (toText (anchor target)) = anchor target := by
  have hline : toText (anchor target) = ("  " : Text) ++ (initialNode ++
      (" -> " ++ (target ++ (" [style=invis,constraint=true]" : Text)))) := by
    simp only [toText, List.append_assoc]
  rw [hline, ofLine_graph (by decide) rfl, ofGraphLine_arrow (by decide)]
  unfold ofEdgeRest
  simp only
  rw [Text.takeWhile_append_of_stop h.2 rfl, Text.dropWhile_append_of_stop h.2 rfl]
  rfl

/-- The name of a relation is read back from the attributes of its edges. -/
theorem relationOf_append {style : EdgeStyle} (h : style ∈ EdgeStyle.all) (relation : Text) :
    relationOf (" [color=" ++ (style.color ++ (",label=\"  " ++ (relation ++ ("  \",fontcolor=" ++
      (style.color ++ (style.extra ++ ("]" : Text)))))))) = relation := by
  have hcomma : ∀ c ∈ style.color, decide (c ≠ (',' : CodePoint)) = true := fun c hc =>
    decide_eq_true fun e => EdgeStyle.comma_not_mem_color style h (e ▸ hc)
  unfold relationOf
  simp only
  rw [List.drop_left, Text.takeWhile_append_of_stop hcomma rfl, EdgeStyle.ofColor_color style h]
  have hbetween := Text.between_append (" [color=" ++ style.color ++ ",label=\"  ") relation
    ("  \",fontcolor=" ++ style.color ++ style.extra ++ "]")
  simp only [List.append_assoc] at hbetween ⊢
  exact hbetween

theorem ofLine_arrow {relation source target : Text} (hsource : source.IsToken)
    (htarget : target.IsToken) :
    ofLine (toText (arrow relation source target)) = arrow relation source target := by
  have hmem := EdgeStyle.ofRelation_mem_all relation
  have hline : toText (arrow relation source target) = ("  " : Text) ++ (source ++ (" -> " ++ (target ++
      (" [color=" ++ ((EdgeStyle.ofRelation relation).color ++ (",label=\"  " ++ (relation ++
        ("  \",fontcolor=" ++ ((EdgeStyle.ofRelation relation).color ++
          ((EdgeStyle.ofRelation relation).extra ++ ("]" : Text))))))))))) := by
    simp only [toText, arrowText, List.append_assoc]
  rw [hline, ofLine_graph hsource rfl, ofGraphLine_arrow hsource]
  unfold ofEdgeRest
  simp only
  rw [Text.takeWhile_append_of_stop htarget.2 rfl, Text.dropWhile_append_of_stop htarget.2 rfl]
  show arrow (relationOf _) source target = _
  rw [relationOf_append hmem]

/-- **A legible statement is read back** from its line. -/
theorem ofLine_toText {s : Statement} (h : s.Legible) : ofLine s.toText = s := by
  cases s with
  | openGraph | initial | clusterStyle | clusterColor | closeCluster | closeGraph => rfl
  | openCluster thread => exact ofLine_openCluster thread
  | clusterLabel thread => exact ofLine_clusterLabel thread
  | node name label value => exact ofLine_node h.1 h.2.2.1
  | chain names => exact ofLine_chain h
  | anchor target => exact ofLine_anchor h
  | arrow relation source target => exact ofLine_arrow h.2.1 h.2.2

/-! ## Drawings -/

/-- The texts that a statement puts together. -/
def texts : Statement → List Text
  | node name label value => name :: label :: value.toList
  | chain names => names
  | anchor target => [target]
  | arrow relation source target => [relation, source, target]
  | _ => []

/-- No text of the statement holds a line feed. -/
def OneLine (s : Statement) : Prop := ∀ t ∈ s.texts, ('\n' : CodePoint) ∉ t

theorem Legible.oneLine {s : Statement} (h : s.Legible) : s.OneLine := by
  have hbreak {t : Text} (ht : t.IsToken) : ('\n' : CodePoint) ∉ t := ht.not_mem (by decide)
  cases s with
  | node name label value =>
    refine List.forall_mem_cons.mpr ⟨hbreak h.1, List.forall_mem_cons.mpr ⟨h.2.1, fun v hv => ?_⟩⟩
    exact h.2.2.2 v (Option.mem_toList.mp hv)
  | chain names => exact fun name hname => hbreak (h name hname)
  | anchor target => exact List.forall_mem_singleton.mpr (hbreak h)
  | arrow relation source target =>
    exact List.forall_mem_cons.mpr ⟨h.1, List.forall_mem_cons.mpr ⟨hbreak h.2.1,
      List.forall_mem_singleton.mpr (hbreak h.2.2)⟩⟩
  | _ => exact fun t ht => absurd ht List.not_mem_nil

/-- **A statement whose texts are one line each** is one line. -/
theorem lineFeed_not_mem_toText {s : Statement} (h : s.OneLine) : ('\n' : CodePoint) ∉ s.toText := by
  cases s with
  | openGraph | initial | clusterStyle | clusterColor | closeCluster | closeGraph => decide
  | openCluster thread | clusterLabel thread =>
    simp only [toText, List.mem_append, not_or]
    exact ⟨⟨by decide, Text.lineFeed_not_mem_ofInt thread⟩, by decide⟩
  | node name label value =>
    obtain ⟨hname, h⟩ := List.forall_mem_cons.mp h
    obtain ⟨hlabel, hvalue⟩ := List.forall_mem_cons.mp h
    cases value with
    | none =>
      simp only [toText, List.mem_append, not_or]
      exact ⟨⟨⟨⟨by decide, hname⟩, by decide⟩, hlabel⟩, by decide⟩
    | some value =>
      have hvalue := hvalue value List.mem_cons_self
      simp only [toText, List.mem_append, not_or]
      exact ⟨⟨⟨⟨⟨⟨by decide, hname⟩, by decide⟩, hlabel⟩, by decide⟩, hvalue⟩, by decide⟩
  | chain names =>
    simp only [toText, List.mem_append, not_or]
    exact ⟨⟨by decide, Text.not_mem_join (by decide) h⟩, by decide⟩
  | anchor target =>
    simp only [toText, List.mem_append, not_or]
    exact ⟨⟨⟨⟨by decide, by decide⟩, by decide⟩, h target List.mem_cons_self⟩, by decide⟩
  | arrow relation source target =>
    have hstyle := EdgeStyle.lineFeed_not_mem_style _ (EdgeStyle.ofRelation_mem_all relation)
    rw [List.mem_append, not_or] at hstyle
    obtain ⟨hrelation, h⟩ := List.forall_mem_cons.mp h
    obtain ⟨hsource, htarget⟩ := List.forall_mem_cons.mp h
    have htarget := htarget target List.mem_cons_self
    simp only [toText, arrowText, List.mem_append, not_or]
    exact ⟨⟨⟨⟨⟨⟨⟨⟨⟨⟨⟨by decide, hsource⟩, by decide⟩, htarget⟩, by decide⟩, hstyle.1⟩, by decide⟩,
      hrelation⟩, by decide⟩, hstyle.1⟩, hstyle.2⟩, by decide⟩

/-- Statements of one line each are the lines of the text that they make up. -/
theorem lines_unlines_map_toText {ss : List Statement} (h : ∀ s ∈ ss, s.OneLine) :
    (Text.unlines (ss.map toText)).lines = ss.map toText := by
  refine Text.lines_unlines fun l hl => ?_
  obtain ⟨s, hs, rfl⟩ := List.mem_map.mp hl
  exact lineFeed_not_mem_toText (h s hs)

/-- The statements that the lines of a text are read as. -/
def ofText (t : Text) : List Statement := t.lines.map ofLine

/-- **A drawing of legible statements is read back** from its text. -/
theorem ofText_unlines {ss : List Statement} (h : ∀ s ∈ ss, s.Legible) :
    ofText (Text.unlines (ss.map toText)) = ss := by
  unfold ofText
  rw [lines_unlines_map_toText fun s hs => (h s hs).oneLine, List.map_map]
  exact (List.map_congr_left fun s hs => ofLine_toText (h s hs)).trans (List.map_id ss)

end Statement

/-- The text of a drawing is the lines of its statements. -/
theorem Execution.render_eq_unlines (x : Execution) (draw : List Text) :
    x.render draw = Text.unlines ((x.drawing draw).map Statement.toText) := by
  unfold Execution.render Text.unlines
  rw [List.flatMap_map]

/-! ## The sections of a text -/

/-- The lines of statements. -/
def Statement.linesOf (ss : List Statement) : Text := Text.unlines (ss.map Statement.toText)

theorem Statement.linesOf_append (ss ss' : List Statement) :
    linesOf (ss ++ ss') = linesOf ss ++ linesOf ss' := by
  unfold linesOf Text.unlines
  rw [List.map_append, List.flatMap_append]

theorem Statement.linesOf_singleton (s : Statement) : linesOf [s] = s.toText ++ "\n" := by
  simp [linesOf, Text.unlines]

theorem Statement.linesOf_flatMap {α : Type} (f : α → List Statement) (as : List α) :
    linesOf (as.flatMap f) = as.flatMap fun a => linesOf (f a) := by
  induction as with
  | nil => rfl
  | cons a as ih => rw [List.flatMap_cons, List.flatMap_cons, linesOf_append, ih]

namespace Execution

/-- The lines in front of the first thread. -/
def headLines : Text := Statement.linesOf [.openGraph, .initial]

/-- The lines of a thread: its box and its anchor. -/
def threadLines (x : Execution) (thread : Int) : Text := Statement.linesOf (x.threadBlock thread)

/-- The lines of the edges that are drawn. -/
def edgeLines (x : Execution) (draw : List Text) : Text := Statement.linesOf (x.drawnArrows draw)

/-- The line behind all others. -/
def lastLine : Text := Statement.linesOf [.closeGraph]

/-- **The sections of a text**: the threads one after the other, and behind them the edges. -/
theorem render_eq_sections (x : Execution) (draw : List Text) :
    x.render draw =
      headLines ++ x.threads.flatMap x.threadLines ++ x.edgeLines draw ++ lastLine := by
  have hthreads : x.threads.flatMap x.threadLines =
      Statement.linesOf (x.threads.flatMap x.threadBlock) :=
    (Statement.linesOf_flatMap _ _).symm
  unfold headLines edgeLines lastLine
  rw [render_eq_unlines, hthreads, ← Statement.linesOf_append, ← Statement.linesOf_append,
    ← Statement.linesOf_append]
  rfl

end Execution

end LitmusGraph
