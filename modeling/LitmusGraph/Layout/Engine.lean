import LitmusGraph.Text.Basic

/-!
# The layout engine

The engine lays out a drawing and writes it as an image. It is not part of this library: an
`Engine` says whether one is installed, and if so what it answers to a call, the path of the image
or the way in which it failed.

The parameter stands for the package that `export_graph` imports, with `graphviz.Source` and its
`render`. Two things are taken for granted of it. Constructing a source never fails, so an engine
answers one call, the rendering. And what the engine itself does to files is out of scope: the trees of
this library are without the images and without what is cleaned up behind them. So wherever files are
said to be the same or to be kept, it is except for what the engine did to them.

`LayoutFailure` has a case for each kind of exception that `export_graph` or `main` treats in a way of
its own.
-/

namespace LitmusGraph

/-- What the engine is asked to do. -/
structure LayoutCall where
  /-- The path of the image without its suffix. -/
  path : Text
  /-- The format of the image. -/
  format : Text
  /-- The drawing. -/
  dot : Text
deriving DecidableEq

/-- How the engine fails. -/
inductive LayoutFailure where
  /-- The program is not installed. -/
  | notExecutable
  /-- The program ended with a status, negative if a signal ended it. -/
  | exitStatus (status : Int)
  /-- The system refused something. -/
  | system (reason : Text)
  /-- The engine was called wrongly. -/
  | invalid (reason : Text)
  /-- The user interrupted the engine. -/
  | interrupted
  /-- Anything else. -/
  | other (reason : Text)
deriving DecidableEq

/-- The layout engine. -/
inductive Engine where
  /-- No engine is installed. -/
  | missing
  /-- An engine is installed and answers calls. -/
  | installed (answer : LayoutCall → Except LayoutFailure Text)

/-- The names of the signals. -/
def signalNames : List (Nat × String) :=
  [(1, "SIGHUP"), (2, "SIGINT"), (3, "SIGQUIT"), (4, "SIGILL"), (5, "SIGTRAP"), (6, "SIGABRT"),
    (7, "SIGBUS"), (8, "SIGFPE"), (9, "SIGKILL"), (10, "SIGUSR1"), (11, "SIGSEGV"), (12, "SIGUSR2"),
    (13, "SIGPIPE"), (14, "SIGALRM"), (15, "SIGTERM"), (16, "SIGSTKFLT"), (17, "SIGCHLD"),
    (18, "SIGCONT"), (19, "SIGSTOP"), (20, "SIGTSTP"), (21, "SIGTTIN"), (22, "SIGTTOU"),
    (23, "SIGURG"), (24, "SIGXCPU"), (25, "SIGXFSZ"), (26, "SIGVTALRM"), (27, "SIGPROF"),
    (28, "SIGWINCH"), (29, "SIGIO"), (30, "SIGPWR"), (31, "SIGSYS"), (34, "SIGRTMIN"),
    (64, "SIGRTMAX")]

namespace LayoutFailure

/-- A failure that concerns the image alone, so that the run goes on without it. -/
def isTolerated : LayoutFailure → Bool
  | notExecutable | exitStatus _ | system _ => true
  | invalid _ | interrupted | other _ => false

/-- How a program ended, by its status. -/
def describeStatus : Int → Text
  | .ofNat status => "returned non-zero exit status " ++ Text.ofNat status ++ "."
  | .negSucc below =>
    let signal := below + 1
    match signalNames.lookup signal with
    | some name => "died with <Signals." ++ Text.ofString name ++ ": " ++ Text.ofNat signal ++ ">."
    | none => "died with unknown signal " ++ Text.ofNat signal ++ "."

/-- The text of the failure. -/
def message : LayoutFailure → Text
  | notExecutable =>
    "failed to execute 'dot', make sure the Graphviz executables are on your systems' PATH"
  | exitStatus status => "Command '['dot']' " ++ describeStatus status
  | system reason | invalid reason | other reason => reason
  | interrupted => []

end LayoutFailure

end LitmusGraph
