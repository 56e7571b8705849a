import LitmusGraph.Log.Session
import LitmusGraph.Viewer.Session

/-!
# Transcripts

A viewer tells its notices to the shared logger of the program that it is used in. A transcript is
what there is to see of it: for the construction and for each call the answer, the viewer as it is
then, and the messages that were written. A message is what is written of one notice, if anything is.

Embedded is that `GraphRenderer` logs through the shared logger of `get_logger`, with the methods
`debug`, `execution_selected` and `render_summary` of `GraphLogger`.
-/

namespace LitmusGraph

/-- Tells notices to the shared logger, one after the other: the messages written and the loggers
afterwards. -/
def Loggers.tellEach (s : Loggers) : Log → List Text × Loggers
  | [] => ([], s)
  | n :: log =>
    let reply := s.perform (.tellShared n)
    let (messages, after) := reply.loggers.tellEach log
    (if reply.output.isEmpty then messages else reply.output :: messages, after)

namespace Viewer

/-- What there is to see at a call. -/
structure Entry where
  /-- The answer. -/
  answer : Answer
  /-- The viewer afterwards. -/
  viewer : Viewer
  /-- The messages written, in order. -/
  messages : List Text
deriving DecidableEq

/-- What there is to see of a reply whose notices are told to the shared logger, and the loggers
afterwards. -/
def Reply.enter (r : Reply) (s : Loggers) : Entry × Loggers :=
  let (messages, after) := s.tellEach r.log
  ({ answer := r.answer, viewer := r.viewer, messages }, after)

/-- The transcript of calls on a viewer. -/
def transcriptFrom (s : Loggers) (v : Viewer) : List Action → List Entry
  | [] => []
  | a :: actions =>
    let (e, after) := (v.perform a).enter s
    e :: transcriptFrom after e.viewer actions

/-- The reply to the construction of a viewer. -/
def create (xs : List Execution) : Except Refusal Reply :=
  (ofExecutions xs).map fun (notice, v) => { answer := .done, log := [notice], viewer := v }

/-- The transcript of the construction of a viewer and of calls on it. -/
def transcript (s : Loggers) (xs : List Execution) (actions : List Action) :
    Except Refusal (List Entry) :=
  (create xs).map fun created =>
    let (e, after) := created.enter s
    e :: transcriptFrom after e.viewer actions

end Viewer

end LitmusGraph
