import LitmusGraph.Viewer

/-!
# Sessions with a viewer

A session is a sequence of calls on one viewer. Each call gets a reply: an answer, the notices told,
and the viewer as it is then. A refused call leaves the viewer as it was, and the session goes on.

A call is one of `GraphRenderer.select`, `next`, `previous`, the setter of `draw`, `toggle_relation`,
`reset_draw`, `draw_shown` and `render`. A refusal is the exception that the call raises.
-/

namespace LitmusGraph

namespace Viewer

/-- A call on a viewer. -/
inductive Action where
  /-- Makes the candidate of an index current. -/
  | select (index : Int)
  /-- Steps to the following candidate. -/
  | next
  /-- Steps to the candidate before. -/
  | previous
  /-- Sets the draw list. -/
  | setDraw (names : List Text)
  /-- Takes a relation off the draw list or adds it. -/
  | toggle (name : Text)
  /-- Sets the draw list to the default one. -/
  | resetDraw
  /-- Sets the draw list to the relations that the current execution wants shown. -/
  | drawShown
  /-- Draws the current execution. -/
  | render
deriving DecidableEq

/-- What a call answers. -/
inductive Answer where
  /-- Nothing. -/
  | done
  /-- The execution that is current now. -/
  | execution (x : Execution)
  /-- The index that is current now. -/
  | index (index : Nat)
  /-- Whether a relation is drawn now. -/
  | draws (drawn : Bool)
  /-- A drawing. -/
  | drawing (dot : Text)
  /-- The call is refused. -/
  | refused (refusal : Refusal)
deriving DecidableEq

/-- The reply to a call. -/
structure Reply where
  /-- The answer. -/
  answer : Answer
  /-- The notices told. -/
  log : Log
  /-- The viewer afterwards. -/
  viewer : Viewer

/-- The reply of a viewer to a call. -/
def perform (v : Viewer) : Action → Reply
  | .select index =>
    match v.select index with
    | .ok (notice, w) => { answer := .execution w.current, log := [notice], viewer := w }
    | .error refusal => { answer := .refused refusal, log := [], viewer := v }
  | .next => let (notice, w) := v.next; { answer := .index w.index, log := [notice], viewer := w }
  | .previous =>
    let (notice, w) := v.previous; { answer := .index w.index, log := [notice], viewer := w }
  | .setDraw names =>
    let (notice, w) := v.setDraw names; { answer := .done, log := [notice], viewer := w }
  | .toggle name => { answer := .draws (!v.draws name), log := [], viewer := v.toggle name }
  | .resetDraw => { answer := .done, log := [], viewer := v.resetDraw }
  | .drawShown => { answer := .done, log := [], viewer := v.drawShown }
  | .render =>
    match v.render with
    | .ok (notice, dot) => { answer := .drawing dot, log := [notice], viewer := v }
    | .error refusal => { answer := .refused refusal, log := [], viewer := v }

/-- The viewer after calls. -/
def after (v : Viewer) (actions : List Action) : Viewer :=
  actions.foldl (fun w a => (w.perform a).viewer) v

end Viewer

end LitmusGraph
