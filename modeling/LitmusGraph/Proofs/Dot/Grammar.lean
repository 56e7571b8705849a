import LitmusGraph.Proofs.Dot.Lexer
import LitmusGraph.Proofs.Text.Reading
import Mathlib.Data.List.Basic

/-!
# The grammar of a drawing

A drawing is a graph with a box for each thread, an invisible edge to each box and the edges of
relations, one line each:

    digraph Exec {
      IW [label="Initial State",shape=hexagon];
      subgraph cluster<thread> {
        label="Thread #<thread>"
        style=dashed
        color=gray50
        <name> [shape=box,label="<label>"];
        ...
        <name> -> ... -> <name>;
      }
      IW -> <name> [style=invis,constraint=true]
      ...
      <name> -> <name> [color=<color>,label="  <relation>  ",fontcolor=<color>[,constraint=true]]
      ...
    }

`Dot.sentence` puts the lines of such a text together, given what stands in the angle brackets. The
grammar says nothing of what may stand there: `Dot.identifiers` are the identifiers without quotes of
graphs, boxes and nodes, and each of them must be a `Text.IsIdentifier` for DOT to read it.

Results:
* `balanced_sentence`: the braces of a sentence balance.
* `identifiers_sentence`: the identifiers of a sentence.
-/

namespace LitmusGraph

/-- An identifier that needs no quotes: a letter or underscore, and letters, digits and underscores
behind it. -/
def Text.IsIdentifier (t : Text) : Prop := t.IsToken ∧ ∀ c ∈ t.head?, c.isDigit = false

instance (t : Text) : Decidable t.IsIdentifier := inferInstanceAs (Decidable (_ ∧ _))

namespace Dot

/-! ## Lines -/

/-- The arrow between two nodes. -/
def arrow : Token := .word "->"

/-- A setting. -/
def setting (name : Text) (value : Token) : List Token := [.word name, .equals, value]

/-- Settings in brackets. -/
def attributes (settings : List (List Token)) : List Token :=
  .openBracket :: [.comma].intercalate settings ++ [.closeBracket]

/-- The line that opens the graph. -/
def graphOpening : List Token := [.word "digraph", .word "Exec", .openBrace]

/-- The line of the initial node. -/
def initialLine : List Token :=
  .word "IW" :: attributes [setting "label" (.quoted "Initial State"), setting "shape" (.word "hexagon")]
    ++ [.semicolon]

/-- The line that opens the box of a thread. -/
def boxOpening (thread : Text) : List Token := [.word "subgraph", .word ("cluster" ++ thread), .openBrace]

/-- The title of the box of a thread. -/
def boxTitle (thread : Text) : List Token := setting "label" (.quoted ("Thread #" ++ thread))

/-- The outline of a box. -/
def boxStyle : List Token := setting "style" (.word "dashed")

/-- The colour of a box. -/
def boxColor : List Token := setting "color" (.word "gray50")

/-- The line of a node. -/
def nodeLine (name label : Text) : List Token :=
  .word name :: attributes [setting "shape" (.word "box"), setting "label" (.quoted label)]
    ++ [.semicolon]

/-- The line of a chain. -/
def chainLine (names : List Text) : List Token := (names.map Token.word).intersperse arrow ++ [.semicolon]

/-- The line of the invisible edge to a box. -/
def anchorLine (target : Text) : List Token :=
  .word "IW" :: arrow :: .word target ::
    attributes [setting "style" (.word "invis"), setting "constraint" (.word "true")]

/-- The line of an edge. -/
def edgeLine (source target color relation : Text) (constrained : Bool) : List Token :=
  .word source :: arrow :: .word target ::
    attributes ([setting "color" (.word color), setting "label" (.quoted ("  " ++ relation ++ "  ")),
      setting "fontcolor" (.word color)] ++
        if constrained then [setting "constraint" (.word "true")] else [])

/-! ## Sentences -/

/-- What the grammar leaves open of a box. -/
structure Box where
  /-- The thread. -/
  thread : Text
  /-- The nodes, each with its label. -/
  nodes : List (Text × Text)
  /-- The node that the box hangs from. -/
  anchor : Text

/-- What the grammar leaves open of an edge. -/
structure Arrow where
  /-- The first node. -/
  source : Text
  /-- The second node. -/
  target : Text
  /-- The colour. -/
  color : Text
  /-- The relation. -/
  relation : Text
  /-- Whether the edge takes part in ranking. -/
  constrained : Bool

/-- The lines in the box of a thread. -/
def Box.inner (b : Box) : List (List Token) :=
  [boxTitle b.thread, boxStyle, boxColor] ++ b.nodes.map (fun n => nodeLine n.1 n.2) ++
    [chainLine (b.nodes.map Prod.fst)]

/-- The lines of a box and of the edge to it. -/
def Box.lines (b : Box) : List (List Token) :=
  boxOpening b.thread :: b.inner ++ [[.closeBrace], anchorLine b.anchor]

/-- The line of an edge. -/
def Arrow.line (a : Arrow) : List Token := edgeLine a.source a.target a.color a.relation a.constrained

/-- The lines of a graph. -/
def sentence (boxes : List Box) (arrows : List Arrow) : List (List Token) :=
  [graphOpening, initialLine] ++ boxes.flatMap Box.lines ++ arrows.map Arrow.line ++ [[.closeBrace]]

/-! ## Braces -/

/-- How many braces are open behind tokens, if no brace is closed that is not open. -/
def depthAfter : Nat → List Token → Option Nat
  | depth, [] => some depth
  | depth, .openBrace :: rest => depthAfter (depth + 1) rest
  | 0, .closeBrace :: _ => none
  | depth + 1, .closeBrace :: rest => depthAfter depth rest
  | depth, _ :: rest => depthAfter depth rest

/-- Every brace that is opened is closed, and none else is. -/
def Balanced (tokens : List Token) : Prop := depthAfter 0 tokens = some 0

/-- Tokens that leave as many braces open as are open in front of them. -/
def IsLevel (tokens : List Token) : Prop :=
  ∀ depth rest, depthAfter depth (tokens ++ rest) = depthAfter depth rest

theorem isLevel_nil : IsLevel [] := fun _ _ => rfl

theorem IsLevel.append {a b : List Token} (ha : IsLevel a) (hb : IsLevel b) : IsLevel (a ++ b) := by
  intro depth rest
  rw [List.append_assoc, ha, hb]

theorem IsLevel.flatten {lines : List (List Token)} (h : ∀ l ∈ lines, IsLevel l) :
    IsLevel lines.flatten := by
  induction lines with
  | nil => exact isLevel_nil
  | cons l lines ih =>
    exact (h l List.mem_cons_self).append (ih fun m hm => h m (List.mem_cons_of_mem l hm))

/-- Tokens without braces leave the braces alone. -/
theorem isLevel_of_forall {tokens : List Token} (h : ∀ t ∈ tokens, t ≠ .openBrace ∧ t ≠ .closeBrace) :
    IsLevel tokens := by
  intro depth rest
  induction tokens with
  | nil => rfl
  | cons t tokens ih =>
    have ht := h t List.mem_cons_self
    have ih := ih fun u hu => h u (List.mem_cons_of_mem t hu)
    cases t with
    | openBrace => exact absurd rfl ht.1
    | closeBrace => exact absurd rfl ht.2
    | _ => cases depth <;> exact ih

/-- Braces around tokens that leave the braces alone. -/
theorem IsLevel.braced {tokens : List Token} (h : IsLevel tokens) :
    IsLevel (.openBrace :: (tokens ++ [.closeBrace])) := by
  intro depth rest
  show depthAfter (depth + 1) ((tokens ++ [.closeBrace]) ++ rest) = _
  rw [List.append_assoc, h]
  rfl

theorem IsLevel.cons_word {tokens : List Token} (h : IsLevel tokens) (t : Text) :
    IsLevel (.word t :: tokens) :=
  .append (a := [.word t]) (isLevel_of_forall (by simp)) h

theorem IsLevel.balanced {tokens : List Token} (h : IsLevel tokens) : Balanced tokens := by
  unfold Balanced
  rw [← List.append_nil tokens, h]
  rfl

theorem isLevel_nodeLine (name label : Text) : IsLevel (nodeLine name label) :=
  isLevel_of_forall (by simp [nodeLine, attributes, setting, List.intercalate])

theorem isLevel_chainLine : ∀ names : List Text, IsLevel (chainLine names)
  | [] => isLevel_of_forall (by simp [chainLine])
  | [name] => .cons_word (isLevel_of_forall (by simp)) name
  | name :: next :: names => ((isLevel_chainLine (next :: names)).cons_word "->").cons_word name

theorem isLevel_anchorLine (target : Text) : IsLevel (anchorLine target) :=
  isLevel_of_forall (by simp [anchorLine, attributes, setting, List.intercalate, arrow])

theorem Arrow.isLevel_line (a : Arrow) : IsLevel a.line := by
  unfold Arrow.line edgeLine
  cases a.constrained <;>
    exact isLevel_of_forall (by simp [attributes, setting, List.intercalate, arrow])

theorem Box.isLevel_lines (b : Box) : IsLevel b.lines.flatten := by
  have hinner : IsLevel b.inner.flatten := by
    refine .flatten fun l hl => ?_
    unfold Box.inner at hl
    simp only [List.mem_append, List.mem_cons, List.not_mem_nil, or_false, List.mem_map] at hl
    rcases hl with ((rfl | rfl | rfl) | ⟨n, -, rfl⟩) | rfl
    · exact isLevel_of_forall (by simp [boxTitle, setting])
    · exact isLevel_of_forall (by simp [boxStyle, setting])
    · exact isLevel_of_forall (by simp [boxColor, setting])
    · exact isLevel_nodeLine _ _
    · exact isLevel_chainLine _
  have hlines : b.lines.flatten = .word "subgraph" :: .word ("cluster" ++ b.thread) ::
      (.openBrace :: (b.inner.flatten ++ [.closeBrace]) ++ anchorLine b.anchor) := by
    unfold Box.lines boxOpening
    simp only [List.flatten_cons, List.flatten_append, List.flatten_nil, List.cons_append,
      List.nil_append, List.append_assoc, List.append_nil]
  rw [hlines]
  exact ((hinner.braced.append (isLevel_anchorLine _)).cons_word _).cons_word _

/-- **The braces of a sentence balance.** -/
theorem balanced_sentence (boxes : List Box) (arrows : List Arrow) :
    Balanced (sentence boxes arrows).flatten := by
  have hinitial : IsLevel initialLine :=
    isLevel_of_forall (by simp [initialLine, attributes, setting, List.intercalate])
  have hboxes : IsLevel (boxes.flatMap Box.lines).flatten := by
    rw [List.flatMap_def, List.flatten_flatten, List.map_map]
    refine .flatten fun l hl => ?_
    obtain ⟨b, -, rfl⟩ := List.mem_map.mp hl
    exact b.isLevel_lines
  have harrows : IsLevel (arrows.map Arrow.line).flatten := by
    refine .flatten fun l hl => ?_
    obtain ⟨a, -, rfl⟩ := List.mem_map.mp hl
    exact a.isLevel_line
  have hsentence : (sentence boxes arrows).flatten = .word "digraph" :: .word "Exec" ::
      .openBrace :: ((initialLine ++ ((boxes.flatMap Box.lines).flatten ++
        (arrows.map Arrow.line).flatten)) ++ [.closeBrace]) := by
    unfold sentence graphOpening
    simp only [List.flatten_cons, List.flatten_append, List.flatten_nil, List.cons_append,
      List.nil_append, List.append_assoc, List.append_nil]
  rw [hsentence]
  exact (((hinitial.append (hboxes.append harrows)).braced.cons_word _).cons_word _).balanced

/-! ## Identifiers -/

/-- The nodes at the start of a line, with an arrow between two of them. -/
def nodes : List Token → List Text
  | .word name :: .word _ :: rest => name :: nodes rest
  | .word name :: _ => [name]
  | _ => []

/-- The identifiers without quotes that a line names a graph, a box or nodes by. -/
def identifiers : List Token → List Text
  | [.word _, .word name, .openBrace] => [name]
  | .word _ :: .equals :: _ => []
  | line => nodes line

theorem nodes_chainLine : ∀ names : List Text, nodes (chainLine names) = names
  | [] => rfl
  | [_] => rfl
  | name :: next :: names => congrArg (name :: ·) (nodes_chainLine (next :: names))

theorem identifiers_chainLine (names : List Text) : identifiers (chainLine names) = names := by
  refine Eq.trans ?_ (nodes_chainLine names)
  match names with
  | [] | [_] | [_, _] | _ :: _ :: _ :: _ => rfl

/-- The identifiers of a box: its own, its nodes in their lines and in the chain, and both ends of the
edge to it. -/
def Box.identifiers (b : Box) : List Text :=
  ("cluster" ++ b.thread) ::
    (b.nodes.map Prod.fst ++ (b.nodes.map Prod.fst ++ [("IW" : Text), b.anchor]))

theorem Box.flatMap_identifiers_lines (b : Box) : b.lines.flatMap Dot.identifiers = b.identifiers := by
  have hnodes : (b.nodes.map fun n => nodeLine n.1 n.2).flatMap Dot.identifiers =
      b.nodes.map Prod.fst := by
    rw [List.flatMap_map]
    exact List.map_eq_flatMap.symm
  unfold Box.lines Box.inner
  simp only [List.flatMap_cons, List.flatMap_append, List.flatMap_nil, hnodes, List.append_nil,
    List.cons_append, List.nil_append, List.append_assoc, identifiers_chainLine]
  rfl

/-- **The identifiers of a sentence**: those of the graph and of the initial node, those of the boxes,
and the ends of the edges. -/
theorem identifiers_sentence (boxes : List Box) (arrows : List Arrow) :
    (sentence boxes arrows).flatMap identifiers =
      [("Exec" : Text), "IW"] ++ boxes.flatMap Box.identifiers ++
        arrows.flatMap fun a => [a.source, a.target] := by
  have hboxes : (boxes.flatMap Box.lines).flatMap identifiers = boxes.flatMap Box.identifiers := by
    rw [List.flatMap_assoc]
    exact List.flatMap_congr fun b _ => b.flatMap_identifiers_lines
  have harrows : (arrows.map Arrow.line).flatMap identifiers =
      arrows.flatMap fun a => [a.source, a.target] := by
    rw [List.flatMap_map]
    rfl
  unfold sentence
  rw [List.flatMap_append, List.flatMap_append, List.flatMap_append, hboxes, harrows]
  exact List.append_nil _

end Dot

end LitmusGraph
