import LitmusGraph.Drawing.Basic
import LitmusGraph.Execution.Display
import LitmusGraph.Log.Notice

/-!
# Viewer

A viewer holds the candidate executions, never none, the index of the current one, and the draw
list. Stepping wraps around at both ends; selecting a candidate that does not exist changes nothing.
Each operation that tells something returns the viewer with its notice.

Embedded is the class `GraphRenderer` with all its methods and properties, and of the errors that it
raises `EmptyExecutionListError` and `ExecutionSelectionError` with their texts (`Viewer.Refusal`). The
text of the latter has the index in it, so an index with too many digits is refused for that instead
(`Refusal.ofIndex`), and so is a drawing with the number of a thread that has (`Viewer.render`).

Out of scope: sharing a viewer between threads of the program, indices that are no whole numbers, and
counts with too many digits, since no list in memory is as long as that.
-/

namespace LitmusGraph

/-- The candidates, the current one and the draw list. -/
structure Viewer where
  /-- The candidate executions. -/
  executions : List Execution
  /-- The index of the current execution. -/
  index : Nat
  /-- The names of the relations to draw, in drawing order. -/
  draw : List Text
  /-- The current execution exists. -/
  index_lt : index < executions.length
deriving DecidableEq

namespace Viewer

/-- What cannot be viewed. -/
inductive Refusal where
  /-- There is no candidate. -/
  | noExecutions
  /-- No candidate has this index. -/
  | outOfRange (index : Int) (count : Nat)
  /-- A number that is to be written has too many digits. -/
  | tooManyDigits (e : Text.TooManyDigits)
deriving DecidableEq

namespace Refusal

/-- The refusal in words. -/
def message : Refusal → Text
  | noExecutions => "GraphRenderer needs at least one candidate execution"
  | outOfRange index count =>
    "Execution index " ++ Text.ofInt index ++ " out of range for " ++ Text.ofNat count
      ++ " candidate execution(s)"
  | tooManyDigits e => e.message

/-- The refusal of an index that none of `count` candidates has. It names the index, which must be
possible to write. -/
def ofIndex (index : Int) (count : Nat) : Refusal :=
  if Text.IsWritable index then outOfRange index count else tooManyDigits {}

end Refusal

/-- A viewer of the candidates, at the first one and with the default draw list. -/
def ofExecutions (executions : List Execution) : Except Refusal (Notice × Viewer) :=
  if h : 0 < executions.length then
    .ok (.viewing executions.length, { executions, index := 0, draw := defaultDraw, index_lt := h })
  else .error .noExecutions

/-- The number of candidates. -/
def size (v : Viewer) : Nat := v.executions.length

/-- The current execution. -/
def current (v : Viewer) : Execution := v.executions.get ⟨v.index, v.index_lt⟩

/-- Makes the candidate of an index current. -/
def select (v : Viewer) (index : Int) : Except Refusal (Notice × Viewer) :=
  if h : 0 ≤ index ∧ index < v.executions.length then
    .ok (.selected index v.size, { v with index := index.toNat, index_lt := by omega })
  else .error (.ofIndex index v.size)

/-- Makes the candidate current that lies a number of steps ahead, going round at the ends. -/
def step (v : Viewer) (offset : Int) : Notice × Viewer :=
  let index := ((v.index + offset) % v.size).toNat
  have index_lt : index < v.executions.length := by
    have h := v.index_lt
    have h₀ := Int.emod_nonneg (v.index + offset) (b := v.size) (by simp only [size]; omega)
    have h₁ := Int.emod_lt_of_pos (v.index + offset) (b := v.size) (by simp only [size]; omega)
    simp only [index, size] at *
    omega
  (.selected index v.size, { v with index, index_lt })

/-- Steps to the following candidate. -/
def next (v : Viewer) : Notice × Viewer := v.step 1

/-- Steps to the candidate before. -/
def previous (v : Viewer) : Notice × Viewer := v.step (-1)

/-- Sets the draw list. -/
def setDraw (v : Viewer) (names : List Text) : Notice × Viewer :=
  (.drawSet names, { v with draw := names })

/-- Takes a relation off the draw list, every time it is there, or else adds it at the end. -/
def toggle (v : Viewer) (name : Text) : Viewer :=
  if name ∈ v.draw then { v with draw := v.draw.filter (· ≠ name) }
  else { v with draw := v.draw ++ [name] }

/-- Whether a relation is on the draw list. -/
def draws (v : Viewer) (name : Text) : Bool := name ∈ v.draw

/-- Sets the draw list to the default one. -/
def resetDraw (v : Viewer) : Viewer := { v with draw := defaultDraw }

/-- Sets the draw list to the relations that the current execution wants shown. -/
def drawShown (v : Viewer) : Viewer := { v with draw := v.current.shown }

/-- Draws the current execution. -/
def render (v : Viewer) : Except Refusal (Notice × Text) := do
  let dot ← (v.current.toDot v.draw).mapError .tooManyDigits
  let told : Notice :=
    .rendered v.index v.current.events.length v.current.threads.length (Text.lineFeeds dot)
  return (told, dot)

end Viewer

end LitmusGraph
