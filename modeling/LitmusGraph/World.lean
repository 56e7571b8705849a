import LitmusGraph.FileTree.Basic
import LitmusGraph.Layout.Engine
import LitmusGraph.Log.Notice

/-!
# What a run leaves behind

A run reads and changes files, writes to the standard output, tells notices and calls the layout
engine. All of that is kept in a `World`, and a `Run` is a computation on it that may fail. What was
done before a failure stays done.

`Run.execute` is how a run is looked at: its outcome, and the world it leaves. The lemmas below say
what each step of a run contributes to both.

A failure stands for an exception that leaves the functions of the program, and `World` for all of the
outside that they change. Out of scope: what the layout engine changes, and the order of what goes to
the standard output and what goes to the standard error.
-/

namespace LitmusGraph

/-- The files, and what has been written, told and called so far. -/
structure World where
  /-- The files. -/
  files : FileTree
  /-- What has been written to the standard output. -/
  stdout : Text := []
  /-- The notices told. -/
  log : Log := []
  /-- The calls to the layout engine. -/
  calls : List LayoutCall := []

/-- A computation that changes the world and may fail. -/
abbrev Run (ε α : Type) := ExceptT ε (StateM World) α

namespace Run

variable {ε ε' α : Type}

/-- Tells a notice. -/
def tell (n : Notice) : Run ε Unit := modify fun w => { w with log := w.log ++ [n] }

/-- Adds to the standard output. -/
def emit (t : Text) : Run ε Unit := modify fun w => { w with stdout := w.stdout ++ t }

/-- The files as they are. -/
def files : Run ε FileTree := return (← get).files

/-- Replaces the files. -/
def setFiles (files : FileTree) : Run ε Unit := modify fun w => { w with files }

/-- The value of a result, or its failure. -/
def ofExcept (wrap : ε' → ε) : Except ε' α → Run ε α
  | .ok a => pure a
  | .error e => throw (wrap e)

/-- A run with its failures seen as failures of another kind. -/
def wrapError (wrap : ε' → ε) (r : Run ε' α) : Run ε α :=
  ExceptT.mk do
    match ← r.run with
    | .ok a => return .ok a
    | .error e => return .error (wrap e)

/-- The outcome of a run on a world, and the world afterwards. -/
def execute (r : Run ε α) (w : World) : Except ε α × World := r.run w

/-! ## What each step does -/

@[simp] theorem execute_pure (a : α) (w : World) : execute (pure a : Run ε α) w = (.ok a, w) := rfl

@[simp] theorem execute_throw (e : ε) (w : World) :
    execute (throw e : Run ε α) w = (.error e, w) := rfl

/-- A failure skips what follows and keeps the world as it is then. -/
theorem execute_bind {β : Type} (r : Run ε α) (f : α → Run ε β) (w : World) :
    (r >>= f).execute w
      = match r.execute w with
        | (.ok a, w') => (f a).execute w'
        | (.error e, w') => (.error e, w') := by
  simp only [execute, ExceptT.run, bind, ExceptT.bind, ExceptT.mk, ExceptT.bindCont, StateT.bind]
  cases r w with
  | mk result w' => cases result <;> rfl

@[simp] theorem execute_tell (n : Notice) (w : World) :
    (tell n : Run ε Unit).execute w = (.ok (), { w with log := w.log ++ [n] }) := rfl

@[simp] theorem execute_emit (t : Text) (w : World) :
    (emit t : Run ε Unit).execute w = (.ok (), { w with stdout := w.stdout ++ t }) := rfl

@[simp] theorem execute_files (w : World) :
    (files : Run ε FileTree).execute w = (.ok w.files, w) := rfl

@[simp] theorem execute_setFiles (files : FileTree) (w : World) :
    (setFiles files : Run ε Unit).execute w = (.ok (), { w with files }) := rfl

@[simp] theorem execute_ofExcept (wrap : ε' → ε) (result : Except ε' α) (w : World) :
    (ofExcept wrap result).execute w = (result.mapError wrap, w) := by
  cases result <;> rfl

/-- Seeing failures as others does nothing else. -/
theorem execute_wrapError (wrap : ε' → ε) (r : Run ε' α) (w : World) :
    (r.wrapError wrap).execute w = ((r.execute w).1.mapError wrap, (r.execute w).2) := by
  simp only [execute, wrapError, ExceptT.run, ExceptT.mk, bind, StateT.bind]
  cases r w with
  | mk result w' => cases result <;> rfl

/-- A run goes on from where its first part ends. -/
theorem execute_bind_of_ok {β : Type} {r : Run ε α} {f : α → Run ε β} {w after : World} {a : α}
    (h : r.execute w = (.ok a, after)) : (r >>= f).execute w = (f a).execute after := by
  rw [execute_bind, h]

/-- A run ends where its first part fails. -/
theorem execute_bind_of_error {β : Type} {r : Run ε α} {f : α → Run ε β} {w after : World} {e : ε}
    (h : r.execute w = (.error e, after)) : (r >>= f).execute w = (.error e, after) := by
  rw [execute_bind, h]

/-- A run that gets to its end has got to the end of its first part. -/
theorem exists_of_execute_bind {β : Type} {r : Run ε α} {f : α → Run ε β} {w after : World} {b : β}
    (h : (r >>= f).execute w = (.ok b, after)) :
    ∃ a mid, r.execute w = (.ok a, mid) ∧ (f a).execute mid = (.ok b, after) := by
  rw [execute_bind] at h
  cases hfirst : r.execute w with
  | mk result mid =>
    cases result with
    | ok a =>
      rw [hfirst] at h
      exact ⟨a, mid, rfl, h⟩
    | error e =>
      rw [hfirst] at h
      exact nomatch h

/-- Notices are told one after another. -/
theorem execute_forM_tell (log : Log) (w : World) :
    (log.forM Run.tell : Run ε PUnit).execute w = (.ok (), { w with log := w.log ++ log }) := by
  induction log generalizing w with
  | nil =>
    show (Except.ok (), w) = _
    rw [List.append_nil]
  | cons n log ih =>
    show (Run.tell n >>= fun _ => log.forM Run.tell : Run ε PUnit).execute w = _
    rw [execute_bind_of_ok (execute_tell n w), ih, List.append_assoc]
    rfl

end Run

end LitmusGraph
