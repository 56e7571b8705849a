import LitmusGraph.Log.Logger

/-!
# Loggers in step

A logger that was opened has one sink, with the threshold that the logger has itself. The two stay in
step when a threshold is set, and a logger in step writes a notice once or not at all, by whether the
severity of the notice reaches that threshold. So all that a logger writes of a log is the rendering
of the log at its threshold.

Results:
* `Logger.inStep_reopen`, `Logger.InStep.setThreshold`, `SharedLogger.inStep_get_configure`: what
  keeps a logger in step.
* `Logger.InStep.write_eq`: a notice is written once or not at all.
* `Logger.InStep.flatMap_write`: what is written of a log.
* `Log.visible_visible`: a higher threshold shows a part of what a lower one shows.
-/

namespace LitmusGraph

namespace Severity

/-- What reaches a threshold reaches every lower one. -/
theorem passes_of_le {s low high : Severity} (h : low.number ≤ high.number)
    (hpasses : s.passes high = true) : s.passes low = true :=
  decide_eq_true (Nat.le_trans h (of_decide_eq_true hpasses))

end Severity

namespace Log

/-- **A higher threshold** shows of a log what it shows of the part that a lower one shows. -/
theorem visible_visible {low high : Severity} (h : low.number ≤ high.number) (log : Log) :
    visible high (visible low log) = visible high log := by
  unfold visible
  rw [List.filter_filter]
  refine List.filter_congr fun n _ => ?_
  cases hhigh : n.severity.passes high with
  | true => rw [Severity.passes_of_le h hhigh, Bool.and_self]
  | false => rw [Bool.false_and]

theorem render_cons (threshold : Severity) (n : Notice) (log : Log) :
    render threshold (n :: log) =
      (if n.severity.passes threshold then n.line else []) ++ render threshold log := by
  unfold render visible
  cases hpasses : n.severity.passes threshold <;> simp [hpasses]

end Log

theorem Notice.line_ne_nil (n : Notice) : n.line ≠ [] :=
  List.append_ne_nil_of_right_ne_nil _ (List.cons_ne_nil _ _)

namespace Logger

/-- The logger and its only sink have this threshold. -/
structure InStep (l : Logger) (threshold : Severity) : Prop where
  own : l.threshold = threshold
  sinks : l.sinks = [threshold]

variable {l : Logger} {threshold : Severity}

theorem inStep_reopen (l : Logger) (threshold : Severity) : (l.reopen threshold).InStep threshold :=
  ⟨rfl, rfl⟩

theorem InStep.setThreshold (h : l.InStep threshold) (threshold' : Severity) :
    (l.setThreshold threshold').InStep threshold' where
  own := rfl
  sinks := congrArg (List.map fun _ => threshold') h.sinks

/-- **A logger in step** writes a notice once, or not at all. -/
theorem InStep.write_eq (h : l.InStep threshold) (n : Notice) :
    l.write n = if n.severity.passes threshold then n.line else [] := by
  unfold write
  rw [h.own, h.sinks]
  split
  · next hpasses => rw [List.filter_cons_of_pos hpasses]; exact List.append_nil n.line
  · rfl

theorem InStep.write_ne_nil_iff (h : l.InStep threshold) (n : Notice) :
    l.write n ≠ [] ↔ n.severity.passes threshold = true := by
  rw [h.write_eq]
  split
  · next hpasses => exact iff_of_true n.line_ne_nil hpasses
  · next hpasses => exact iff_of_false (fun hne => hne rfl) hpasses

/-- What a logger in step writes of a log is the rendering of the log. -/
theorem InStep.flatMap_write (h : l.InStep threshold) (log : Log) :
    log.flatMap l.write = Log.render threshold log := by
  induction log with
  | nil => rfl
  | cons n log ih =>
    rw [List.flatMap_cons, ih, h.write_eq, Log.render_cons]

end Logger

namespace SharedLogger

/-- Setting the threshold by the flags keeps the shared logger in step. -/
theorem inStep_get_configure {s : SharedLogger} {threshold : Severity}
    (h : (s.get defaultName).InStep threshold) (verbose debugging : Bool) (name : Text) :
    ((s.configure verbose debugging).get name).InStep (.ofFlags verbose debugging) :=
  h.setThreshold _

end SharedLogger

end LitmusGraph
