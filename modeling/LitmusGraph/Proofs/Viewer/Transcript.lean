import LitmusGraph.Proofs.Execution.Threads
import LitmusGraph.Proofs.Log.Session
import LitmusGraph.Proofs.Viewer.Toggle
import LitmusGraph.Viewer.Transcript

/-!
# The log of a viewer is an exact trace

The shared logger can have been used for anything before its threshold is set; from then on a viewer
tells it notices for debugging and nothing else. So its log is empty at every other threshold. At
the threshold `debug` it has a message for the construction and one for each selection, step, draw
list set and drawing, with the numbers of the viewer after the call, and none for anything else.
Whatever the loggers are like, the answers are the same and the viewers too.

Results:
* `Loggers.writesAt_setShared`, `Loggers.WritesAt.tellEach_eq`: what is written of a log, once the
  threshold is set.
* `results_transcript`: the loggers do not matter to what a viewer does.
* `viewer_of_getElem?_transcriptFrom`: a transcript follows the session.
* `traced_perform`, `forall₂_traced`: what is logged of one call, and of a whole session.
* `log_is_exact_trace`: **the log of a viewer is an exact trace** and nothing more.
-/

namespace LitmusGraph

/-! ## The shared logger at a threshold -/

namespace Loggers

/-- The shared logger is open and writes by a threshold, each notice once or not at all. -/
def WritesAt (s : Loggers) (threshold : Severity) : Prop :=
  ∀ n, s.perform (.tellShared n) =
    { answer := .done, output := if n.severity.passes threshold then n.line else [], loggers := s }

/-- **Setting the threshold** of the shared logger opens it, if need be, and makes it write by that
threshold. -/
theorem writesAt_setShared {s : Loggers} {given : List Given} (h : s.Orderly given)
    (threshold : Severity) : (s.perform (.setShared threshold)).loggers.WritesAt threshold := by
  obtain ⟨w, name, hshared, hlaws⟩ := handleLaws_setShared h threshold
  intro n
  have houtput := hlaws.tell n
  generalize (s.perform (.setShared threshold)).loggers = t at hshared houtput
  simp only [perform] at houtput
  simp only [perform, getShared_of_some hshared, houtput, Severity.passes, decide_eq_true_eq]

/-- What is written of a log are the lines of what the threshold shows of it. -/
theorem WritesAt.tellEach_eq {s : Loggers} {threshold : Severity} (h : s.WritesAt threshold)
    (log : Log) : s.tellEach log = ((Log.visible threshold log).map Notice.line, s) := by
  induction log with
  | nil => rfl
  | cons n log ih =>
    rw [tellEach, h n]
    simp only [ih]
    by_cases hpasses : n.severity.passes threshold
    · simp [Log.visible, hpasses, n.line_ne_nil]
    · simp [Log.visible, hpasses]

end Loggers

namespace Viewer

/-! ## What is logged -/

/-- A message at the threshold `debug`. -/
def debugLine (message : Text) : Text := "[DEBUG] " ++ message ++ "\n"

/-- The message that one of `count` candidates is current. They are counted from one. -/
def selectedLine (index count : Nat) : Text :=
  debugLine ("Selected execution " ++ Text.ofNat (index + 1) ++ "/" ++ Text.ofNat count)

/-- The message that an execution was drawn, with the numbers of its events, of its distinct threads
and of the line feeds of the drawing. -/
def renderedLine (index : Nat) (x : Execution) (dot : Text) : Text :=
  debugLine ("Rendered execution " ++ Text.ofNat index ++ ": " ++ Text.ofNat x.events.length
    ++ " events on " ++ Text.ofNat (x.events.map Event.thread).toFinset.card ++ " thread(s), "
    ++ Text.ofNat (Text.lineFeeds dot) ++ " DOT lines")

/-- What there is to see at a call on a viewer of the candidates `xs`, at the threshold `debug`. -/
inductive Traced (xs : List Execution) : Action → Entry → Prop where
  /-- A selection is logged. -/
  | select (v : Viewer) {x : Execution} (current : xs[v.index]? = some x) : Traced xs
    (.select v.index)
    { answer := .execution x, viewer := v, messages := [selectedLine v.index xs.length] }
  /-- A selection that fails is not logged. -/
  | refused (v : Viewer) {i : Int} (outside : ¬ (0 ≤ i ∧ i < xs.length)) : Traced xs (.select i)
    { answer := .refused (if Text.IsWritable i then .outOfRange i xs.length else .tooManyDigits {})
      viewer := v
      messages := [] }
  /-- A step ahead is logged as the selection that it comes to. -/
  | next (v : Viewer) : Traced xs .next
    { answer := .index v.index, viewer := v, messages := [selectedLine v.index xs.length] }
  /-- A step back is logged like one ahead. -/
  | previous (v : Viewer) : Traced xs .previous
    { answer := .index v.index, viewer := v, messages := [selectedLine v.index xs.length] }
  /-- A draw list that is set is logged. -/
  | setDraw (v : Viewer) : Traced xs (.setDraw v.draw)
    { answer := .done
      viewer := v
      messages := [debugLine ("Draw list set to " ++ Text.quotedList v.draw)] }
  /-- A toggle is not logged. -/
  | toggle (v : Viewer) (name : Text) : Traced xs (.toggle name)
    { answer := .draws (name ∈ v.draw), viewer := v, messages := [] }
  /-- Going back to the default draw list is not logged. -/
  | resetDraw (v : Viewer) : Traced xs .resetDraw { answer := .done, viewer := v, messages := [] }
  /-- Taking the draw list from the current execution is not logged. -/
  | drawShown (v : Viewer) : Traced xs .drawShown { answer := .done, viewer := v, messages := [] }
  /-- A drawing is logged, with the numbers of the current execution. -/
  | render (v : Viewer) {x : Execution} (current : xs[v.index]? = some x) (drawable : x.IsDrawable) :
    Traced xs .render
    { answer := .drawing (x.render v.draw)
      viewer := v
      messages := [renderedLine v.index x (x.render v.draw)] }
  /-- A drawing that fails is not logged. -/
  | notRendered (v : Viewer) {x : Execution} (current : xs[v.index]? = some x)
    (undrawable : ¬ x.IsDrawable) : Traced xs .render
    { answer := .refused (.tooManyDigits {}), viewer := v, messages := [] }

/-- The laws of a transcript: `created` is what there is to see of the construction of a viewer of
the candidates `xs`, and `entries` of the calls `actions`, the threshold being the one given. -/
structure LogLaws (xs : List Execution) (actions : List Action) (threshold : Severity)
    (created : Entry) (entries : List Entry) : Prop where
  /-- The viewer is a new one. -/
  start : ofExecutions xs = .ok (.viewing xs.length, created.viewer)
  /-- Every call has an entry. -/
  length : entries.length = actions.length
  /-- The viewer of an entry is the one that the session has come to. -/
  viewer : ∀ k e, entries[k]? = some e → e.viewer = created.viewer.after (actions.take (k + 1))
  /-- Above `debug`, nothing is logged. -/
  quiet : threshold ≠ .debug → ∀ e ∈ created :: entries, e.messages = []
  /-- The construction is logged. -/
  created : threshold = .debug → created.messages =
    [debugLine ("Renderer created with " ++ Text.ofNat xs.length ++ " candidate execution(s)")]
  /-- The calls are logged by the rules. -/
  traced : threshold = .debug → List.Forall₂ (Traced xs) actions entries

/-! ## The loggers do not matter -/

/-- What there is to see at a call but for the messages. -/
def Entry.result (e : Entry) : Answer × Viewer := (e.answer, e.viewer)

/-- The answers and the viewers of a transcript, or the refusal. -/
def results (seen : Except Refusal (List Entry)) : Except Refusal (List (Answer × Viewer)) :=
  seen.map (List.map Entry.result)

/-- **Whatever the loggers are like**, a viewer does the same. -/
theorem map_result_transcriptFrom (s s' : Loggers) (v : Viewer) (actions : List Action) :
    (transcriptFrom s v actions).map Entry.result = (transcriptFrom s' v actions).map Entry.result := by
  induction actions generalizing s s' v with
  | nil => rfl
  | cons a actions ih =>
    have hfirst : ((v.perform a).enter s).1.result = ((v.perform a).enter s').1.result := rfl
    simp only [transcriptFrom, List.map_cons, hfirst]
    exact congrArg _ (ih _ _ _)

theorem results_transcript (s s' : Loggers) (xs : List Execution) (actions : List Action) :
    results (transcript s xs actions) = results (transcript s' xs actions) := by
  unfold transcript results
  cases create xs with
  | error refusal => rfl
  | ok created =>
    exact congrArg (fun rest => Except.ok ((created.answer, created.viewer) :: rest))
      (map_result_transcriptFrom _ _ _ _)

theorem length_transcriptFrom (s : Loggers) (v : Viewer) (actions : List Action) :
    (transcriptFrom s v actions).length = actions.length := by
  induction actions generalizing s v with
  | nil => rfl
  | cons a actions ih => exact congrArg Nat.succ (ih _ _)

/-- A transcript follows the session. -/
theorem viewer_of_getElem?_transcriptFrom {s : Loggers} {v : Viewer} {actions : List Action} {k : Nat}
    {e : Entry} (h : (transcriptFrom s v actions)[k]? = some e) :
    e.viewer = v.after (actions.take (k + 1)) := by
  induction actions generalizing s v k with
  | nil => exact nomatch h
  | cons a actions ih =>
    cases k with
    | zero =>
      obtain rfl := Option.some.inj h
      rfl
    | succ k => exact ih h

/-! ## The log of a call -/

/-- A viewer tells notices for debugging only. -/
theorem severity_of_mem_log {v : Viewer} {a : Action} {n : Notice} (h : n ∈ (v.perform a).log) :
    n.severity = .debug := by
  cases a with
  | select i =>
    by_cases hi : 0 ≤ i ∧ i < v.size
    · obtain ⟨w, hw, -⟩ := perform_select hi.1 hi.2
      rw [hw] at h
      obtain rfl := List.mem_singleton.mp h
      rfl
    · rw [perform_select_refused hi] at h
      exact nomatch h
  | next | previous | setDraw =>
    obtain rfl := List.mem_singleton.mp h
    rfl
  | toggle | resetDraw | drawShown => exact nomatch h
  | render =>
    by_cases hx : v.current.IsDrawable
    · rw [perform_render hx] at h
      obtain rfl := List.mem_singleton.mp h
      rfl
    · rw [perform_render_refused hx] at h
      exact nomatch h

section Logged

variable {s : Loggers} {threshold : Severity}

theorem enter_eq (hs : s.WritesAt threshold) (r : Reply) :
    r.enter s = ({ answer := r.answer, viewer := r.viewer
                   messages := (Log.visible threshold r.log).map Notice.line }, s) := by
  unfold Reply.enter
  rw [hs.tellEach_eq]

/-- Above `debug`, notices for debugging are not written. -/
theorem enter_quiet (hs : s.WritesAt threshold) (hne : threshold ≠ .debug) {r : Reply}
    (hlog : ∀ n ∈ r.log, n.severity = .debug) : (r.enter s).1.messages = [] := by
  rw [enter_eq hs]
  refine List.map_eq_nil_iff.mpr (List.filter_eq_nil_iff.mpr fun n hn => ?_)
  rw [hlog n hn]
  cases threshold with
  | debug => exact absurd rfl hne
  | info | warning | error => decide

/-- At `debug`, every notice is written. -/
theorem enter_debug (hs : s.WritesAt .debug) (r : Reply) :
    r.enter s = ({ answer := r.answer, viewer := r.viewer, messages := r.log.map Notice.line }, s) := by
  have hall : Log.visible .debug r.log = r.log :=
    List.filter_eq_self.mpr fun n _ => by cases n.severity <;> rfl
  rw [enter_eq hs, hall]

/-- A notice for debugging is written with a mark in front. -/
theorem line_of_debug {n : Notice} (h : n.severity = .debug) : n.line = debugLine n.message := by
  rw [Notice.line, h]
  rfl

theorem line_selected (index count : Nat) :
    (Notice.selected index count).line = selectedLine index count := line_of_debug rfl

theorem line_rendered (index : Nat) (x : Execution) (dot : Text) :
    (Notice.rendered index x.events.length x.threads.length (Text.lineFeeds dot)).line =
      renderedLine index x dot := by
  rw [line_of_debug rfl, renderedLine, ← x.length_threads]
  rfl

/-- The current execution is the candidate of the index. -/
theorem getElem?_index (v : Viewer) : v.executions[v.index]? = some v.current :=
  List.getElem?_eq_getElem v.index_lt

/-- **What is logged of one call** at `debug`. -/
theorem traced_perform (hs : s.WritesAt .debug) (v : Viewer) (a : Action) :
    Traced v.executions a ((v.perform a).enter s).1 := by
  rw [enter_debug hs]
  cases a with
  | select i =>
    by_cases hi : 0 ≤ i ∧ i < v.size
    · obtain ⟨w, hw, hxs, rfl, -⟩ := perform_select hi.1 hi.2
      rw [hw, List.map_singleton, line_selected]
      exact .select w (hxs ▸ w.getElem?_index)
    · rw [perform_select_refused hi]
      exact .refused v hi
  | next =>
    have hreply : v.perform .next = { answer := .index v.next.2.index
                                      log := [.selected v.next.2.index v.size]
                                      viewer := v.next.2 } := rfl
    rw [hreply, List.map_singleton, line_selected]
    exact .next v.next.2
  | previous =>
    have hreply : v.perform .previous = { answer := .index v.previous.2.index
                                          log := [.selected v.previous.2.index v.size]
                                          viewer := v.previous.2 } := rfl
    rw [hreply, List.map_singleton, line_selected]
    exact .previous v.previous.2
  | setDraw names => exact .setDraw (v.setDraw names).2
  | toggle name =>
    have hanswer : (!v.draws name) = decide (name ∈ (v.toggle name).draw) := by
      simp [draws, mem_toggle, Xor]
    simp only [perform, hanswer]
    exact .toggle (v.toggle name) name
  | resetDraw => exact .resetDraw v.resetDraw
  | drawShown => exact .drawShown v.drawShown
  | render =>
    by_cases hx : v.current.IsDrawable
    · rw [perform_render hx, List.map_singleton, line_rendered]
      exact .render v v.getElem?_index hx
    · rw [perform_render_refused hx]
      exact .notRendered v v.getElem?_index hx

/-! ## The log of a session -/

/-- **What is logged of the calls of a session** at `debug`. -/
theorem forall₂_traced (hs : s.WritesAt .debug) (v : Viewer) (actions : List Action) :
    List.Forall₂ (Traced v.executions) actions (transcriptFrom s v actions) := by
  -- What is written leaves the loggers as they are, and the candidates stay too.
  induction actions generalizing v with
  | nil => exact .nil
  | cons a actions ih =>
    have hfirst := traced_perform hs v a
    have hrest := ih (v.perform a).viewer
    rw [perform_executions] at hrest
    simp only [transcriptFrom, enter_debug hs] at hfirst ⊢
    exact .cons hfirst hrest

/-- Above `debug`, nothing is logged of a session. -/
theorem messages_of_mem_transcriptFrom (hs : s.WritesAt threshold) (hne : threshold ≠ .debug)
    {v : Viewer} {actions : List Action} {e : Entry} (he : e ∈ transcriptFrom s v actions) :
    e.messages = [] := by
  induction actions generalizing v with
  | nil => exact nomatch he
  | cons a actions ih =>
    have hfirst := enter_quiet hs hne fun _ => severity_of_mem_log (v := v) (a := a)
    simp only [transcriptFrom, enter_eq hs] at hfirst he
    obtain rfl | hrest := List.mem_cons.mp he
    · exact hfirst
    · exact ih hrest

/-- **The laws of a transcript** hold once the shared logger writes by a threshold. The construction
of the viewer is logged like a call on it. -/
theorem logLaws_transcript (hs : s.WritesAt threshold) {xs : List Execution} (hxs : xs ≠ [])
    (actions : List Action) : ∃ created entries,
      transcript s xs actions = .ok (created :: entries) ∧
        LogLaws xs actions threshold created entries := by
  obtain ⟨start, hstart, rfl, -, -⟩ := exists_ofExecutions hxs
  let reply : Reply := { answer := .done, log := [.viewing start.executions.length], viewer := start }
  have hcreate : create start.executions = .ok reply := by
    unfold create
    rw [hstart]
    rfl
  refine ⟨(reply.enter s).1, transcriptFrom s start actions, ?_, ?_⟩
  · simp only [transcript, hcreate, Except.map, enter_eq hs]
    rfl
  · constructor
    · exact hstart
    · exact length_transcriptFrom s start actions
    · exact fun k e he => viewer_of_getElem?_transcriptFrom he
    · intro hne e he
      obtain rfl | he := List.mem_cons.mp he
      · refine enter_quiet hs hne fun n hn => ?_
        obtain rfl := List.mem_singleton.mp hn
        rfl
      · exact messages_of_mem_transcriptFrom hs hne he
    · rintro rfl
      rw [enter_debug hs]
      exact congrArg (fun line => [line]) (line_of_debug rfl)
    · rintro rfl
      exact forall₂_traced hs start actions

end Logged

/-- **The log of a viewer is an exact trace and nothing more.** Whatever the loggers are like, the
answers are the same and the viewers too. After any calls on the loggers, once the threshold of the
shared one is set: without candidates there is no viewer and nothing to see, and else the transcript
obeys its laws. -/
theorem log_is_exact_trace (xs : List Execution) (actions : List Action) :
    (∀ s s', results (transcript s xs actions) = results (transcript s' xs actions)) ∧
    ∀ calls threshold,
      let s := Loggers.unopened.after (calls ++ [.setShared threshold])
      (xs = [] → transcript s xs actions = .error .noExecutions) ∧
      (xs ≠ [] → ∃ created entries, transcript s xs actions = .ok (created :: entries) ∧
        LogLaws xs actions threshold created entries) := by
  refine ⟨fun s s' => results_transcript s s' xs actions, fun calls threshold => ?_⟩
  rw [Loggers.after_append]
  have hs := Loggers.writesAt_setShared (Loggers.orderly_unopened.after calls) threshold
  refine ⟨?_, fun hxs => logLaws_transcript hs hxs actions⟩
  rintro rfl
  rfl

/-- Calls of all kinds, with a selection that fails. -/
def twoCandidatesCalls : List Action :=
  [.next, .select 7, .drawShown, .render, .toggle "po", .resetDraw, .setDraw ["rf"], .previous]

/-- What is logged of each of these calls. -/
def twoCandidatesMessages : List (List Text) :=
  [["[DEBUG] Selected execution 2/2\n"], [], [],
    ["[DEBUG] Rendered execution 1: 0 events on 0 thread(s), 3 DOT lines\n"], [], [],
    ["[DEBUG] Draw list set to ['rf']\n"], ["[DEBUG] Selected execution 1/2\n"]]

/-- **These calls are logged** at `debug`, though the shared logger was at another threshold before. -/
theorem twoCandidates_log_is_exact_trace :
    let s := Loggers.unopened.after [.setShared .warning, .setShared .debug]
    ∃ created entries, transcript s twoCandidates twoCandidatesCalls = .ok (created :: entries) ∧
      LogLaws twoCandidates twoCandidatesCalls .debug created entries ∧
      entries.map Entry.messages = twoCandidatesMessages := by
  intro s
  obtain ⟨created, entries, hseen, hlaws⟩ :=
    ((log_is_exact_trace twoCandidates twoCandidatesCalls).2 [.setShared .warning] .debug).2
      (by decide)
  refine ⟨created, entries, hseen, hlaws, ?_⟩
  have hmessages : (transcript s twoCandidates twoCandidatesCalls).map
      (fun seen => seen.tail.map Entry.messages) = .ok twoCandidatesMessages := by
    decide +kernel
  exact Except.ok.inj ((congrArg (Except.map _) hseen).symm.trans hmessages)

end Viewer

end LitmusGraph
