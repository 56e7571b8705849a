import LitmusGraph.Log.Logger
import LitmusGraph.Table

/-!
# Sessions with loggers

A session is a sequence of calls on the loggers of a program. Loggers are kept by name, and a handle
stands for the name that it was opened with, so handles of one name share one logger: opening a
handle reopens the logger that the others stand for. The handle that is shared is opened by its first
use, whatever that is.

Embedded is that `GraphLogger.__init__` asks for its logger by name, so that two objects of one name
share it, next to what `LitmusGraph.Log.Logger` embeds. Out of scope: loggers that are asked for in
other ways.
-/

namespace LitmusGraph

/-- A handle of a logger, by the number of handles opened before it. -/
abbrev Handle := Nat

/-- The loggers of a program. -/
structure Loggers where
  /-- The loggers, by name. -/
  registry : Table Logger
  /-- The names of the loggers that the handles stand for, in the order of opening. -/
  handles : List Text
  /-- The handle that is shared, once there is one. -/
  shared : Option Handle

namespace Loggers

/-- The loggers of a program that has not opened any. -/
def unopened : Loggers := { registry := [], handles := [], shared := none }

/-- The logger of a name: the one that there is, or else a new one. -/
def find (s : Loggers) (name : Text) : Logger :=
  (s.registry.get? (Logger.create name).name).getD (Logger.create name)

/-- The logger that a handle stands for. -/
def behind? (s : Loggers) (h : Handle) : Option Logger := s.handles[h]?.bind s.registry.get?

/-- Opens a handle of the logger of a name, with a threshold. -/
def openHandle (s : Loggers) (name : Text) (threshold : Severity) : Handle × Loggers :=
  let l := (s.find name).reopen threshold
  (s.handles.length,
    { s with registry := s.registry.insert l.name l, handles := s.handles ++ [l.name] })

/-- Sets the threshold of the logger that a handle stands for. -/
def setThreshold (s : Loggers) (h : Handle) (threshold : Severity) : Loggers :=
  match s.behind? h with
  | some l => { s with registry := s.registry.insert l.name (l.setThreshold threshold) }
  | none => s

/-- What is written of a notice told to a handle. -/
def write (s : Loggers) (h : Handle) (n : Notice) : Text :=
  match s.behind? h with
  | some l => l.write n
  | none => []

/-- The shared handle, opened for a name if there is none yet. -/
def getShared (s : Loggers) (name : Text) : Handle × Loggers :=
  match s.shared with
  | some h => (h, s)
  | none =>
    let (h, opened) := s.openHandle name .info
    (h, { opened with shared := some h })

/-- A call on the loggers of a program. -/
inductive Call where
  /-- Opens a handle of the logger of a name. -/
  | openHandle (name : Text) (threshold : Severity)
  /-- Sets the threshold of the logger that a handle stands for. -/
  | setThreshold (h : Handle) (threshold : Severity)
  /-- Tells a notice to a handle. -/
  | tell (h : Handle) (n : Notice)
  /-- Asks for the threshold of the logger that a handle stands for. -/
  | threshold (h : Handle)
  /-- Asks for the shared handle, by a name. -/
  | getShared (name : Text)
  /-- Sets the threshold of the shared logger. -/
  | setShared (threshold : Severity)
  /-- Sets the threshold of the shared logger by the flags. -/
  | configure (verbose debugging : Bool)
  /-- Tells a notice to the shared handle. -/
  | tellShared (n : Notice)

/-- What a call answers. -/
inductive Answer where
  /-- Nothing. -/
  | done
  /-- A handle. -/
  | handle (h : Handle)
  /-- The number of a threshold. -/
  | level (number : Nat)
deriving DecidableEq

/-- The reply to a call. -/
structure Reply where
  /-- The answer. -/
  answer : Answer
  /-- What is written. -/
  output : Text
  /-- The loggers afterwards. -/
  loggers : Loggers

/-- The reply of the loggers to a call. -/
def perform (s : Loggers) : Call → Reply
  | .openHandle name threshold =>
    let (h, after) := s.openHandle name threshold
    { answer := .handle h, output := [], loggers := after }
  | .setThreshold h threshold =>
    { answer := .done, output := [], loggers := s.setThreshold h threshold }
  | .tell h n => { answer := .done, output := s.write h n, loggers := s }
  | .threshold h =>
    { answer := ((s.behind? h).map fun l => Answer.level l.threshold.number).getD .done
      output := []
      loggers := s }
  | .getShared name =>
    let (h, after) := s.getShared name
    { answer := .handle h, output := [], loggers := after }
  | .setShared threshold =>
    let (h, after) := s.getShared SharedLogger.defaultName
    { answer := .done, output := [], loggers := after.setThreshold h threshold }
  | .configure verbose debugging =>
    let (h, after) := s.getShared SharedLogger.defaultName
    { answer := .done
      output := []
      loggers := after.setThreshold h (.ofFlags verbose debugging) }
  | .tellShared n =>
    let (h, after) := s.getShared SharedLogger.defaultName
    { answer := .done, output := after.write h n, loggers := after }

/-- The loggers after calls. -/
def after (s : Loggers) (calls : List Call) : Loggers :=
  calls.foldl (fun t c => (t.perform c).loggers) s

end Loggers

end LitmusGraph
