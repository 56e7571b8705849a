import LitmusGraph.CommandLine

/-!
# What the parts of a run do to the world

A run leads from a world to a later one, in some sense of later, whether or not it fails: the files may
be the same, or the calls to the engine. Such a sense is an order, and it allows some
of the things that a run may do in one step. A run that is put together of steps that are allowed
leads to a later world, and that is shown once for each way of putting runs together, and once for
each part of a run.

Results:
* `Run.LeadsTo`: a run leads from every world to a later one.
* `Run.LeadsTo.bind`, `Run.LeadsTo.forM`: runs one after the other.
* `leadsTo_openViewer`, `leadsTo_printList`, `leadsTo_deliver`, …: the parts of a run, each in any
  sense of later that allows what the part does.
-/

namespace LitmusGraph

namespace Run

variable {ε ε' α β : Type}

/-- A run leads from every world to a later one, be it that it fails. -/
def LeadsTo (later : World → World → Prop) (r : Run ε α) : Prop := ∀ w, later w (r.execute w).2

/-- A sense of later: every world is later than itself, and what is later than a later one is later. -/
structure Order (later : World → World → Prop) : Prop where
  refl : ∀ w, later w w
  trans : ∀ {a b c}, later a b → later b c → later a c

/-- A view of the world is the same later. -/
theorem Order.ofView {γ : Type} (view : World → γ) : Order fun w after => view after = view w where
  refl _ := rfl
  trans hab hbc := hbc.trans hab

/-- A world with one more notice is later. -/
def AllowsNotices (later : World → World → Prop) : Prop :=
  ∀ w n, later w { w with log := w.log ++ [n] }

/-- A world with more on the standard output is later. -/
def AllowsOutput (later : World → World → Prop) : Prop :=
  ∀ w t, later w { w with stdout := w.stdout ++ t }

/-- A world with other files is later. -/
def AllowsFiles (later : World → World → Prop) : Prop := ∀ w files, later w { w with files }

variable {later : World → World → Prop}

section Order

variable (horder : Order later)

include horder

theorem LeadsTo.pure (a : α) : LeadsTo later (Pure.pure a : Run ε α) := horder.refl

theorem LeadsTo.throw (e : ε) : LeadsTo later (MonadExcept.throw e : Run ε α) := horder.refl

theorem LeadsTo.files : LeadsTo later (Run.files : Run ε FileTree) := horder.refl

theorem LeadsTo.ofExcept (wrap : ε' → ε) (result : Except ε' α) :
    LeadsTo later (Run.ofExcept wrap result) := fun w => by
  rw [execute_ofExcept]
  exact horder.refl w

/-- **Runs one after the other** lead to a later world if each of them does. -/
theorem LeadsTo.bind {r : Run ε α} {f : α → Run ε β} (hr : LeadsTo later r)
    (hf : ∀ a, LeadsTo later (f a)) : LeadsTo later (r >>= f) := by
  intro w
  rw [execute_bind]
  have hfirst := hr w
  cases h : r.execute w with
  | mk result after =>
    rw [h] at hfirst
    cases result with
    | ok a => exact horder.trans hfirst (hf a after)
    | error e => exact hfirst

/-- A run for each item of a list leads to a later world if each of them does. -/
theorem LeadsTo.forM {f : α → Run ε PUnit} (hf : ∀ a, LeadsTo later (f a)) (items : List α) :
    LeadsTo later (items.forM f) := by
  induction items with
  | nil => exact .pure horder _
  | cons a items ih => exact .bind horder (hf a) fun _ => ih

end Order

theorem LeadsTo.tell (hnotices : AllowsNotices later) (n : Notice) :
    LeadsTo later (Run.tell n : Run ε Unit) := fun w => hnotices w n

theorem LeadsTo.emit (houtput : AllowsOutput later) (t : Text) :
    LeadsTo later (Run.emit t : Run ε Unit) := fun w => houtput w t

theorem LeadsTo.setFiles (hfiles : AllowsFiles later) (files : FileTree) :
    LeadsTo later (Run.setFiles files : Run ε Unit) := fun w => hfiles w files

end Run

namespace CommandLine

open Run

variable {later : World → World → Prop} (horder : Order later)

include horder

/-! ## Parts that only tell -/

section Notices

variable (hnotices : AllowsNotices later)

include hnotices

theorem leadsTo_told {ε α : Type} (wrap : ε → Failure) (log : Log) (result : Except ε α) :
    (told wrap (log, result)).LeadsTo later := by
  unfold told
  exact .bind horder (.forM horder (.tell hnotices) log) fun _ => .ofExcept horder wrap result

theorem leadsTo_openViewer (input : Path) : (openViewer input).LeadsTo later := by
  unfold openViewer
  refine .bind horder (.files horder) fun files => ?_
  refine .bind horder (leadsTo_told horder hnotices _ _ _) fun xs => ?_
  refine .bind horder (.ofExcept horder _ _) fun start => ?_
  exact .bind horder (.tell hnotices _) fun _ => .pure horder _

theorem leadsTo_select (viewer : Viewer) (index : Option Int) :
    (select viewer index).LeadsTo later := by
  cases index with
  | none => exact .throw horder _
  | some index =>
    unfold select
    refine .bind horder (.ofExcept horder _ _) fun selected => ?_
    exact .bind horder (.tell hnotices _) fun _ => .pure horder _

theorem leadsTo_chooseDraw (viewer : Viewer) (options : Options) :
    (chooseDraw viewer options).LeadsTo later := by
  unfold chooseDraw
  split
  · exact .pure horder _
  split
  · exact .pure horder _
  · exact .bind horder (.tell hnotices _) fun _ => .pure horder _

theorem leadsTo_validate (input : Path) : (validate input).LeadsTo later := by
  unfold validate
  refine .bind horder (.files horder) fun files => ?_
  exact .bind horder (leadsTo_told horder hnotices _ _ _) fun _ => .tell hnotices _

end Notices

/-! ## Parts that write to the standard output -/

theorem leadsTo_print (houtput : AllowsOutput later) (t : Text) : (print t).LeadsTo later := by
  unfold print
  exact .bind horder (.ofExcept horder _ _) fun _ => .emit houtput t

theorem leadsTo_printList (houtput : AllowsOutput later) (viewer : Viewer) :
    (printList viewer).LeadsTo later := by
  unfold printList
  refine .forM horder (fun x => ?_) _
  exact .bind horder (leadsTo_print horder houtput _) fun _ => leadsTo_print horder houtput _

/-! ## The part that changes files -/

theorem leadsTo_deliver (hnotices : AllowsNotices later) (hfiles : AllowsFiles later)
    (houtput : AllowsOutput later) (dot : Text) (destination : Destination) :
    (deliver dot destination).LeadsTo later := by
  cases destination with
  | standard => exact leadsTo_print horder houtput dot
  | nowhere => exact .throw horder _
  | file path =>
    unfold deliver
    refine .bind horder (.files horder) fun files => ?_
    refine .bind horder (.ofExcept horder _ _) fun emptied => ?_
    refine .bind horder (.setFiles hfiles _) fun _ => .bind horder (.ofExcept horder _ _) fun bytes => ?_
    refine .bind horder (.ofExcept horder _ _) fun written => ?_
    exact .bind horder (.setFiles hfiles _) fun _ => .tell hnotices _

end CommandLine

end LitmusGraph
