import LitmusGraph.Log.Notice

/-!
# Loggers

A logger has a threshold and writes through sinks, each with a threshold of its own, so a notice is
written once for every sink that it passes. Opening a logger removes the sinks it had and attaches
one; setting the threshold sets it for the logger and for every sink.

The shared logger is opened by its first use, whatever that is, and keeps the name it was opened
with.

Embedded are `GraphLogger.__init__` (`Logger.create` and its opening), `set_level`, `level` and the
calls that write, on one logger with its handlers, and `get_logger`, `set_log_level` and
`configure_logging` on the global one. Out of scope: filters, handlers that others attach, and the root
logger's own handlers, since nothing is passed on to it.
-/

namespace LitmusGraph

/-- A named logger. -/
structure Logger where
  /-- The name it was opened with. -/
  name : Text
  /-- The severity that a notice must reach. -/
  threshold : Severity
  /-- The severities that a notice must reach to be written through each sink. -/
  sinks : List Severity
deriving DecidableEq

namespace Logger

/-- The name of the root logger, which is also the one asked for without a name. -/
def rootName : Text := "root"

/-- A logger without sinks. -/
def create (name : Text) : Logger :=
  { name := if name.isEmpty then rootName else name, threshold := .warning, sinks := [] }

/-- Opens a logger, which may have been open before: sets the threshold, and leaves exactly one
sink. -/
def reopen (l : Logger) (threshold : Severity) : Logger :=
  { l with threshold, sinks := [threshold] }

/-- A new logger with a threshold. -/
def start (name : Text) (threshold : Severity) : Logger := (create name).reopen threshold

/-- Sets the threshold of a logger and of its sinks. -/
def setThreshold (l : Logger) (threshold : Severity) : Logger :=
  { l with threshold, sinks := l.sinks.map fun _ => threshold }

/-- What a logger writes of a notice. -/
def write (l : Logger) (n : Notice) : Text :=
  if n.severity.passes l.threshold then
    (l.sinks.filter n.severity.passes).flatMap fun _ => n.line
  else []

end Logger

/-- The shared logger, once it has been opened. -/
abbrev SharedLogger := Option Logger

namespace SharedLogger

/-- The name of the shared logger, unless its first use gives another. -/
def defaultName : Text := "execgraph"

/-- The shared logger, opened with a name if it is not open yet. -/
def get (s : SharedLogger) (name : Text) : Logger := s.getD (Logger.start name .info)

/-- The shared logger with another threshold. -/
def setThreshold (s : SharedLogger) (threshold : Severity) : SharedLogger :=
  some ((s.get defaultName).setThreshold threshold)

/-- The shared logger with the threshold that the flags ask for. -/
def configure (s : SharedLogger) (verbose debugging : Bool) : SharedLogger :=
  s.setThreshold (.ofFlags verbose debugging)

end SharedLogger

end LitmusGraph
