import LitmusGraph.Log.Session
import LitmusGraph.Proofs.Log.InStep

/-!
# Loggers stay in step

Whatever the calls of a session are, a logger has one sink, and the threshold of both is the one that
was given last to a handle of that logger, by whichever of its handles. So a notice told to a handle
is written once or not at all. The shared handle is opened by its first use and stays.

Results:
* `lastGiven?_concat`: which threshold was given last.
* `Orderly.openHandle`, `Orderly.setThreshold`, `Orderly.getShared`: the registry follows the
  thresholds given.
* `Orderly.perform`, `Orderly.after`: what one call and what a whole session preserves.
* `shared_perform_of_first`, `Continues.after`: the shared handle from its first use on.
* `session_keeps_loggers_in_step`: the laws of a session.
-/

namespace LitmusGraph

namespace Loggers

/-! ## The thresholds given -/

/-- A threshold given to the logger of a name. -/
abbrev Given := Text × Severity

/-- The threshold given last to the logger of a name. -/
def lastGiven? (given : List Given) (name : Text) : Option Severity := Table.get? given.reverse name

/-- What is given by setting the threshold through a handle. -/
def givenTo (s : Loggers) (h : Handle) (threshold : Severity) : List Given :=
  (s.handles[h]?.map fun name => (name, threshold)).toList

/-- What is given by a use of the shared handle, which its first use opens. -/
def givenByUse (s : Loggers) (name : Text) : List Given :=
  match s.shared with
  | some _ => []
  | none => [((Logger.create name).name, .info)]

/-- What is given by setting the threshold of the shared logger. -/
def givenToShared (s : Loggers) (threshold : Severity) : List Given :=
  s.givenByUse SharedLogger.defaultName ++
    (s.getShared SharedLogger.defaultName).2.givenTo (s.getShared SharedLogger.defaultName).1
      threshold

/-- The thresholds given by a call, in order. -/
def given (s : Loggers) : Call → List Given
  | .openHandle name threshold => [((Logger.create name).name, threshold)]
  | .setThreshold h threshold => s.givenTo h threshold
  | .tell _ _ | .threshold _ => []
  | .getShared name => s.givenByUse name
  | .setShared threshold => s.givenToShared threshold
  | .configure verbose debugging => s.givenToShared (.ofFlags verbose debugging)
  | .tellShared _ => s.givenByUse SharedLogger.defaultName

/-- The thresholds given during a session, in order. -/
def givenDuring (s : Loggers) : List Call → List Given
  | [] => []
  | c :: calls => s.given c ++ givenDuring (s.perform c).loggers calls

/-- **The threshold given last** to a name. -/
@[simp] theorem lastGiven?_concat (given : List Given) (key name : Text) (threshold : Severity) :
    lastGiven? (given ++ [(key, threshold)]) name =
      if name = key then some threshold else lastGiven? given name := by
  simp [lastGiven?, Table.get?_cons]

@[simp] theorem after_nil (s : Loggers) : s.after [] = s := rfl

@[simp] theorem after_cons (s : Loggers) (c : Call) (calls : List Call) :
    s.after (c :: calls) = (s.perform c).loggers.after calls := rfl

theorem after_append (s : Loggers) (before rest : List Call) :
    s.after (before ++ rest) = (s.after before).after rest := List.foldl_append

/-! ## The loggers follow the thresholds given -/

/-- A logger of a name that is in step with a threshold. -/
def loggerAt (name : Text) (threshold : Severity) : Logger := { name, threshold, sinks := [threshold] }

/-- What a session preserves that has given some thresholds. -/
structure Orderly (s : Loggers) (given : List Given) : Prop where
  /-- The loggers are those that a threshold was given to, in step with the last one. -/
  registry : ∀ name, s.registry.get? name = (lastGiven? given name).map (loggerAt name)
  /-- Behind each handle is a logger. -/
  handles : ∀ name ∈ s.handles, ∃ threshold, lastGiven? given name = some threshold
  /-- The shared handle has been opened. -/
  shared : ∀ h, s.shared = some h → h < s.handles.length

theorem orderly_unopened : unopened.Orderly [] where
  registry := fun _ => rfl
  handles := fun _ hname => absurd hname List.not_mem_nil
  shared := fun _ h => nomatch h

namespace Orderly

variable {s : Loggers} {given : List Given}

/-- A logger is reopened in step, whether it was open before or not. -/
theorem reopen_find (h : s.Orderly given) (name : Text) (threshold : Severity) :
    (s.find name).reopen threshold = loggerAt (Logger.create name).name threshold := by
  unfold find
  rw [h.registry]
  cases lastGiven? given (Logger.create name).name with
  | none => rfl
  | some _ => rfl

/-- Behind a handle is the logger of its name, in step with the threshold given last. -/
theorem behind?_eq (h : s.Orderly given) {w : Handle} {name : Text}
    (hname : s.handles[w]? = some name) :
    ∃ threshold, lastGiven? given name = some threshold ∧
      s.behind? w = some (loggerAt name threshold) := by
  obtain ⟨threshold, hlast⟩ := h.handles name (List.mem_of_getElem? hname)
  refine ⟨threshold, hlast, ?_⟩
  simp [behind?, hname, h.registry, hlast]

/-- A logger of the registry put in step with a new threshold. -/
theorem registry_insert (h : s.Orderly given) (key : Text) (threshold : Severity) (name : Text) :
    (s.registry.insert key (loggerAt key threshold)).get? name =
      (lastGiven? (given ++ [(key, threshold)]) name).map (loggerAt name) := by
  rw [Table.get?_insert, lastGiven?_concat]
  by_cases hkey : name = key
  · simp [hkey]
  · simp [hkey, h.registry]

/-- A name that had a threshold still has one. -/
theorem handles_insert (h : s.Orderly given) (key : Text) (threshold : Severity) :
    ∀ name ∈ s.handles, ∃ last, lastGiven? (given ++ [(key, threshold)]) name = some last := by
  intro name hname
  rw [lastGiven?_concat]
  split
  · exact ⟨threshold, rfl⟩
  · exact h.handles name hname

/-- **Opening a handle** gives its threshold to the logger behind it. -/
theorem openHandle (h : s.Orderly given) (name : Text) (threshold : Severity) :
    (s.openHandle name threshold).2.Orderly (given ++ [((Logger.create name).name, threshold)]) := by
  unfold Loggers.openHandle
  rw [h.reopen_find]
  refine ⟨h.registry_insert _ threshold, ?_, fun w hw => ?_⟩
  · intro other hother
    obtain hother | hother := List.mem_append.mp hother
    · exact h.handles_insert _ threshold other hother
    · obtain rfl := List.mem_singleton.mp hother
      exact ⟨threshold, by simp [loggerAt]⟩
  · exact Nat.lt_of_lt_of_le (h.shared w hw) (by simp)

/-- **Setting a threshold** through a handle gives it to the logger behind the handle. -/
theorem setThreshold (h : s.Orderly given) (w : Handle) (threshold : Severity) :
    (s.setThreshold w threshold).Orderly (given ++ s.givenTo w threshold) := by
  cases hname : s.handles[w]? with
  | none => simpa [Loggers.setThreshold, behind?, givenTo, hname] using h
  | some name =>
    obtain ⟨last, -, hbehind⟩ := h.behind?_eq hname
    simp only [Loggers.setThreshold, hbehind, givenTo, hname]
    exact ⟨h.registry_insert name threshold, h.handles_insert name threshold, h.shared⟩

/-- **A use of the shared handle** gives a threshold only if it opens the handle. -/
theorem getShared (h : s.Orderly given) (name : Text) :
    (s.getShared name).2.Orderly (given ++ s.givenByUse name) := by
  unfold Loggers.getShared givenByUse
  cases hshared : s.shared with
  | some w => simpa using h
  | none =>
    obtain ⟨hregistry, hhandles, -⟩ := h.openHandle name .info
    refine ⟨hregistry, hhandles, ?_⟩
    rintro w ⟨⟩
    simp [Loggers.openHandle]

/-- Setting the threshold of the shared logger opens its handle first, if need be. -/
theorem setShared (h : s.Orderly given) (threshold : Severity) :
    ((s.getShared SharedLogger.defaultName).2.setThreshold
      (s.getShared SharedLogger.defaultName).1 threshold).Orderly
      (given ++ s.givenToShared threshold) := by
  rw [givenToShared, ← List.append_assoc]
  exact (h.getShared _).setThreshold _ threshold

/-- **One call** keeps the loggers in order. -/
theorem perform (h : s.Orderly given) (c : Call) :
    (s.perform c).loggers.Orderly (given ++ s.given c) := by
  cases c with
  | openHandle name threshold => exact h.openHandle name threshold
  | setThreshold w threshold => exact h.setThreshold w threshold
  | tell w n => simpa [Loggers.perform, Loggers.given] using h
  | threshold w => simpa [Loggers.perform, Loggers.given] using h
  | getShared name => exact h.getShared name
  | setShared threshold => exact h.setShared threshold
  | configure verbose debugging => exact h.setShared _
  | tellShared n => exact h.getShared _

/-- **A session** keeps the loggers in order. -/
theorem after (h : s.Orderly given) (calls : List Call) :
    (s.after calls).Orderly (given ++ s.givenDuring calls) := by
  induction calls generalizing s given with
  | nil => simpa [givenDuring] using h
  | cons c calls ih =>
    rw [after_cons, givenDuring, ← List.append_assoc]
    exact ih (h.perform c)

end Orderly

/-! ## What a handle does -/

/-- What holds of a handle of the logger of a name, some thresholds having been given. -/
structure HandleLaws (s : Loggers) (given : List Given) (h : Handle) (name : Text)
    (threshold : Severity) : Prop where
  /-- The handle stands for the name. -/
  opened : s.handles[h]? = some name
  /-- The threshold is the one given last. -/
  last : lastGiven? given name = some threshold
  /-- The logger has one sink, and both have the threshold. -/
  behind : s.behind? h = some { name, threshold, sinks := [threshold] }
  /-- The handle answers with the threshold. -/
  level : (s.perform (.threshold h)).answer = .level threshold.number
  /-- A notice is written once, if its severity reaches the threshold, and else not at all. -/
  tell : ∀ n, (s.perform (.tell h n)).output =
    if threshold.number ≤ n.severity.number then n.line else []

/-- A handle of loggers in order follows the laws. -/
theorem Orderly.handleLaws {s : Loggers} {given : List Given} (h : s.Orderly given) {w : Handle}
    {name : Text} (hname : s.handles[w]? = some name) :
    ∃ threshold, s.HandleLaws given w name threshold := by
  obtain ⟨threshold, hlast, hbehind⟩ := h.behind?_eq hname
  refine ⟨threshold, hname, hlast, hbehind, ?_, fun n => ?_⟩
  · simp [Loggers.perform, hbehind, loggerAt]
  · have hstep : (loggerAt name threshold).InStep threshold := ⟨rfl, rfl⟩
    simp only [Loggers.perform, write, hbehind, hstep.write_eq, Severity.passes,
      decide_eq_true_eq]

/-! ## The shared handle -/

namespace Call

/-- The name by which a call uses the shared handle, if it does. -/
def sharedName? : Call → Option Text
  | getShared name => some name
  | setShared _ | configure _ _ | tellShared _ => some SharedLogger.defaultName
  | openHandle _ _ | setThreshold _ _ | tell _ _ | threshold _ => none

end Call

/-- Handles once opened stay, and so does the shared one. -/
structure Continues (s t : Loggers) : Prop where
  handles : s.handles <+: t.handles
  shared : ∀ h, s.shared = some h → t.shared = some h

namespace Continues

theorem refl (s : Loggers) : s.Continues s := ⟨List.prefix_rfl, fun _ => id⟩

theorem trans {s t u : Loggers} (hst : s.Continues t) (htu : t.Continues u) : s.Continues u :=
  ⟨hst.handles.trans htu.handles, fun h hs => htu.shared h (hst.shared h hs)⟩

/-- A handle goes on standing for its name. -/
theorem name_eq {s t : Loggers} (hst : s.Continues t) {h : Handle} {name : Text}
    (hname : s.handles[h]? = some name) : t.handles[h]? = some name := by
  obtain ⟨opened, hopened⟩ := hst.handles
  rw [← hopened, List.getElem?_append_left (List.getElem?_eq_some_iff.mp hname).1, hname]

theorem openHandle (s : Loggers) (name : Text) (threshold : Severity) :
    s.Continues (s.openHandle name threshold).2 :=
  ⟨List.prefix_append _ _, fun _ => id⟩

theorem setThreshold (s : Loggers) (h : Handle) (threshold : Severity) :
    s.Continues (s.setThreshold h threshold) := by
  unfold Loggers.setThreshold
  split
  · exact ⟨List.prefix_rfl, fun _ => id⟩
  · exact refl s

theorem getShared (s : Loggers) (name : Text) : s.Continues (s.getShared name).2 := by
  unfold Loggers.getShared
  cases hshared : s.shared with
  | some h => exact refl s
  | none => exact ⟨List.prefix_append _ _, fun h hs => by rw [hshared] at hs; exact nomatch hs⟩

theorem perform (s : Loggers) (c : Call) : s.Continues (s.perform c).loggers := by
  cases c with
  | openHandle name threshold => exact openHandle s name threshold
  | setThreshold h threshold => exact setThreshold s h threshold
  | tell | threshold => exact refl s
  | getShared name => exact getShared s name
  | setShared | configure => exact (getShared s _).trans (setThreshold _ _ _)
  | tellShared n => exact getShared s _

/-- **A session** goes on with the handles that it finds. -/
theorem after (s : Loggers) (calls : List Call) : s.Continues (s.after calls) := by
  induction calls generalizing s with
  | nil => exact refl s
  | cons c calls ih => exact (perform s c).trans (ih _)

/-- Whatever a call of a session leaves is gone on with to the end of the session. -/
theorem behind_call (s : Loggers) (before : List Call) (c : Call) (rest : List Call) :
    ((s.after before).perform c).loggers.Continues (s.after (before ++ c :: rest)) := by
  rw [after_append, after_cons]
  exact after _ rest

end Continues

section Shared

variable {s : Loggers}

@[simp] theorem setThreshold_handles (s : Loggers) (h : Handle) (threshold : Severity) :
    (s.setThreshold h threshold).handles = s.handles := by
  unfold setThreshold
  split <;> rfl

@[simp] theorem setThreshold_shared (s : Loggers) (h : Handle) (threshold : Severity) :
    (s.setThreshold h threshold).shared = s.shared := by
  unfold setThreshold
  split <;> rfl

theorem getShared_of_some {h : Handle} (hshared : s.shared = some h) (name : Text) :
    s.getShared name = (h, s) := by
  unfold getShared
  rw [hshared]

theorem find_name {given : List Given} (h : s.Orderly given) (name : Text) :
    (s.find name).name = (Logger.create name).name := by
  calc (s.find name).name = ((s.find name).reopen .info).name := rfl
    _ = (Logger.create name).name := by rw [h.reopen_find]; rfl

/-- A call that tells nothing writes nothing. -/
theorem output_perform_of_silent {c : Call} (htell : ∀ h n, c ≠ .tell h n)
    (hshared : ∀ n, c ≠ .tellShared n) : (s.perform c).output = [] := by
  cases c with
  | tell h n => exact absurd rfl (htell h n)
  | tellShared n => exact absurd rfl (hshared n)
  | openHandle | setThreshold | threshold | getShared | setShared | configure => rfl

/-- A call that does not use the shared handle leaves it as it is. -/
theorem perform_shared_of_unused {c : Call} (hc : c.sharedName? = none) :
    (s.perform c).loggers.shared = s.shared := by
  cases c with
  | openHandle | tell | threshold => rfl
  | setThreshold h threshold => exact setThreshold_shared s h threshold
  | getShared | setShared | configure | tellShared => exact nomatch hc

/-- **The first use** opens the shared handle, by the name that the use has. -/
theorem shared_perform_of_first {given : List Given} (h : s.Orderly given) {c : Call} {name : Text}
    (hshared : s.shared = none) (hc : c.sharedName? = some name) :
    (s.perform c).loggers.shared = some s.handles.length ∧
      (s.perform c).loggers.handles = s.handles ++ [(Logger.create name).name] := by
  have huse : (s.getShared name).2.shared = some s.handles.length ∧
      (s.getShared name).2.handles = s.handles ++ [(Logger.create name).name] := by
    simp [getShared, hshared, openHandle, Logger.reopen, find_name h]
  cases c with
  | openHandle | setThreshold | tell | threshold => exact nomatch hc
  | getShared | tellShared =>
    obtain rfl := Option.some.inj hc
    exact huse
  | setShared | configure =>
    obtain rfl := Option.some.inj hc
    simpa [perform] using huse

/-- The shared handle stays unopened as long as nothing uses it. -/
theorem after_shared_of_unused {calls : List Call} (h : ∀ c ∈ calls, c.sharedName? = none) :
    (s.after calls).shared = s.shared := by
  induction calls generalizing s with
  | nil => rfl
  | cons c calls ih =>
    obtain ⟨hc, hcalls⟩ := List.forall_mem_cons.mp h
    rw [after_cons, ih hcalls, perform_shared_of_unused hc]

/-- The shared handle stands for a name. -/
theorem exists_shared {given : List Given} (h : s.Orderly given) (name : Text) :
    ∃ w key, (s.getShared name).1 = w ∧ (s.getShared name).2.shared = some w ∧
      (s.getShared name).2.handles[w]? = some key := by
  have hshared : (s.getShared name).2.shared = some (s.getShared name).1 := by
    unfold getShared
    cases hs : s.shared with
    | some w => exact hs
    | none => rfl
  have hlt := (h.getShared name).shared _ hshared
  exact ⟨_, _, rfl, hshared, List.getElem?_eq_getElem hlt⟩

/-- A use of the shared handle finds one that follows the laws. -/
theorem handleLaws_getShared {given : List Given} (h : s.Orderly given) (name : Text) :
    ∃ w key threshold, (s.getShared name).1 = w ∧ (s.getShared name).2.shared = some w ∧
      (s.getShared name).2.HandleLaws (given ++ s.givenByUse name) w key threshold := by
  obtain ⟨w, key, hw, hshared, hkey⟩ := exists_shared h name
  obtain ⟨threshold, hlaws⟩ := (h.getShared name).handleLaws hkey
  exact ⟨w, key, threshold, hw, hshared, hlaws⟩

end Shared

/-! ## Calls that give a threshold -/

section Giving

variable {s : Loggers} {given : List Given}

/-- The threshold that a handle has is the one just given to its name. -/
theorem Orderly.handleLaws_concat {name : Text} {threshold : Severity}
    (h : s.Orderly (given ++ [(name, threshold)])) {w : Handle} (hname : s.handles[w]? = some name) :
    s.HandleLaws (given ++ [(name, threshold)]) w name threshold := by
  obtain ⟨last, hlaws⟩ := h.handleLaws hname
  have hlast := hlaws.last
  rw [lastGiven?_concat, if_pos rfl] at hlast
  obtain rfl := Option.some.inj hlast
  exact hlaws

theorem handleLaws_openHandle (h : s.Orderly given) (name : Text) (threshold : Severity) :
    (s.perform (.openHandle name threshold)).loggers.HandleLaws
      (given ++ s.given (.openHandle name threshold)) s.handles.length (Logger.create name).name
      threshold := by
  refine (h.perform (.openHandle name threshold)).handleLaws_concat ?_
  simp [perform, openHandle, h.reopen_find, loggerAt]

theorem handleLaws_setThreshold (h : s.Orderly given) {w w' : Handle} {name : Text}
    (threshold : Severity) (hw : s.handles[w]? = some name) (hw' : s.handles[w']? = some name) :
    (s.perform (.setThreshold w threshold)).loggers.HandleLaws
      (given ++ s.given (.setThreshold w threshold)) w' name threshold := by
  have hgiven : s.given (.setThreshold w threshold) = [(name, threshold)] := by
    simp [Loggers.given, givenTo, hw]
  have horder := h.perform (.setThreshold w threshold)
  rw [hgiven] at horder ⊢
  refine horder.handleLaws_concat ?_
  simpa [perform] using hw'

/-- Setting the threshold of the shared logger sets it for the shared handle. -/
theorem handleLaws_setShared (h : s.Orderly given) (threshold : Severity) :
    ∃ w name, (s.perform (.setShared threshold)).loggers.shared = some w ∧
      (s.perform (.setShared threshold)).loggers.HandleLaws
        (given ++ s.givenToShared threshold) w name threshold := by
  obtain ⟨w, name, hw, hshared, hname⟩ := exists_shared h SharedLogger.defaultName
  refine ⟨w, name, by simpa [perform] using hshared, ?_⟩
  have hset := handleLaws_setThreshold (h.getShared SharedLogger.defaultName) threshold hname hname
  rw [givenToShared, hw, ← List.append_assoc]
  simp only [perform, hw]
  exact hset

end Giving

/-! ## The laws of a session -/

/-- What holds of the loggers `s` after the calls of a session, `given` being the thresholds that the
session gave. -/
structure SessionLaws (calls : List Call) (s : Loggers) (given : List Given) : Prop where
  /-- Every handle follows the laws. -/
  handle : ∀ h name, s.handles[h]? = some name → ∃ threshold, s.HandleLaws given h name threshold
  /-- A handle opened by the session stands for its name to the end. -/
  stays : ∀ before name threshold rest, calls = before ++ .openHandle name threshold :: rest →
    s.handles[(unopened.after before).handles.length]? = some (Logger.create name).name
  /-- Opening a handle gives its threshold, whatever handles of the name there are. -/
  openHandle : ∀ name threshold, let r := s.perform (.openHandle name threshold)
    r.answer = .handle s.handles.length ∧
      r.loggers.HandleLaws (given ++ s.given (.openHandle name threshold)) s.handles.length
        (Logger.create name).name threshold
  /-- A threshold set through a handle is that of all handles of the name. -/
  setThreshold : ∀ h h' name threshold, s.handles[h]? = some name → s.handles[h']? = some name →
    (s.perform (.setThreshold h threshold)).loggers.HandleLaws
      (given ++ s.given (.setThreshold h threshold)) h' name threshold
  /-- The shared handle is opened by its first use, of any kind, and is the same to the end. -/
  shared : ∀ before c rest name, calls = before ++ c :: rest →
    (∀ b ∈ before, b.sharedName? = none) → c.sharedName? = some name →
    let h := (unopened.after before).handles.length
    s.shared = some h ∧ s.handles[h]? = some (Logger.create name).name ∧
      ∀ other, s.perform (.getShared other) = { answer := .handle h, output := [], loggers := s }
  /-- There is no shared handle without a use. -/
  unused : (∀ c ∈ calls, c.sharedName? = none) → s.shared = none
  /-- A use of the shared handle does with it what the same call does with a handle. -/
  use : ∀ c, c.sharedName? ≠ none → ∃ h name threshold,
    (s.perform c).loggers.shared = some h ∧
      (s.perform c).loggers.HandleLaws (given ++ s.given c) h name threshold ∧
      (∀ threshold', c = .setShared threshold' → threshold = threshold') ∧
      (∀ verbose debugging, c = .configure verbose debugging →
        threshold = if debugging then .debug else if verbose then .info else .warning) ∧
      (∀ n, c = .tellShared n → (s.perform c).output =
        if threshold.number ≤ n.severity.number then n.line else [])
  /-- Nothing else is written. -/
  quiet : ∀ c, (∀ h n, c ≠ .tell h n) → (∀ n, c ≠ .tellShared n) → (s.perform c).output = []

/-- **The laws of a session** with the loggers of a program, whatever the calls are. -/
theorem session_keeps_loggers_in_step (calls : List Call) :
    SessionLaws calls (unopened.after calls) (unopened.givenDuring calls) := by
  have horder : (unopened.after calls).Orderly (unopened.givenDuring calls) :=
    orderly_unopened.after calls
  refine
    { handle := fun h name hname => horder.handleLaws hname
      stays := ?_
      openHandle := fun name threshold => ⟨rfl, handleLaws_openHandle horder name threshold⟩
      setThreshold := fun h h' name threshold => handleLaws_setThreshold horder threshold
      shared := ?_
      unused := after_shared_of_unused
      use := ?_
      quiet := fun _ => output_perform_of_silent }
  · rintro before name threshold rest rfl
    exact (Continues.behind_call unopened before _ rest).name_eq
      (handleLaws_openHandle (orderly_unopened.after before) name threshold).opened
  · rintro before c rest name rfl hbefore hc h
    have hnone : (unopened.after before).shared = none := after_shared_of_unused hbefore
    obtain ⟨hshared, hhandles⟩ :=
      shared_perform_of_first (orderly_unopened.after before) hnone hc
    have hbehind := Continues.behind_call unopened before c rest
    have hlast : (unopened.after (before ++ c :: rest)).shared = some h :=
      hbehind.shared _ hshared
    refine ⟨hlast, hbehind.name_eq ?_, fun other => ?_⟩
    · rw [hhandles]
      exact List.getElem?_concat_length
    · simp only [perform, getShared_of_some hlast]
  · intro c hc
    cases c with
    | openHandle | setThreshold | tell | threshold => exact absurd rfl hc
    | getShared name =>
      obtain ⟨w, key, threshold, -, hshared, hlaws⟩ := handleLaws_getShared horder name
      exact ⟨w, key, threshold, hshared, hlaws, nofun, nofun, nofun⟩
    | setShared threshold =>
      obtain ⟨w, key, hshared, hlaws⟩ := handleLaws_setShared horder threshold
      refine ⟨w, key, threshold, hshared, hlaws, ?_, nofun, nofun⟩
      rintro _ ⟨⟩
      rfl
    | configure verbose debugging =>
      obtain ⟨w, key, hshared, hlaws⟩ :=
        handleLaws_setShared horder (.ofFlags verbose debugging)
      refine ⟨w, key, _, hshared, hlaws, nofun, ?_, nofun⟩
      rintro _ _ ⟨⟩
      rfl
    | tellShared n =>
      obtain ⟨w, key, threshold, hw, hshared, hlaws⟩ :=
        handleLaws_getShared horder SharedLogger.defaultName
      refine ⟨w, key, threshold, hshared, hlaws, nofun, nofun, ?_⟩
      rintro _ ⟨⟩
      simp only [perform, hw]
      exact hlaws.tell n

/-- Two handles of one name, the second one opened for errors alone, and a threshold set through the
first one. -/
def twoHandles : List Call :=
  [.openHandle "a" .debug, .openHandle "a" .error, .setThreshold 0 .warning]

/-- **The second handle** writes a warning, once, and no information. -/
theorem twoHandles_in_step :
    let s := unopened.after twoHandles
    s.HandleLaws (unopened.givenDuring twoHandles) 1 "a" .warning ∧
      (s.perform (.tell 1 (.plain .warning "m"))).output = (Notice.plain .warning "m").line ∧
      (s.perform (.tell 1 (.plain .info "m"))).output = [] := by
  obtain ⟨threshold, hlaws⟩ :=
    (session_keeps_loggers_in_step twoHandles).handle 1 "a" (by decide)
  have hlast : lastGiven? (unopened.givenDuring twoHandles) "a" = some .warning := by decide
  obtain rfl := Option.some.inj (hlaws.last.symm.trans hlast)
  exact ⟨hlaws, hlaws.tell _, hlaws.tell _⟩

end Loggers

end LitmusGraph
