import ReplicaRouting.Log.Line
/-!
Runs with a minimum severity: lines below it are left out as soon as they are logged. Two such runs agree if
they answer alike, end in the same state, and write the same lines down to the higher of the two severities.
-/

namespace ReplicaRouting.Log

namespace Severity

theorem trace_enabled (s : Severity) : Severity.trace.enabled s = true :=
  decide_eq_true (Nat.zero_le _)

theorem enabled_of_le {s t v : Severity} (h : s ≤ t) (hv : t.enabled v = true) :
    s.enabled v = true := by
  apply decide_eq_true
  have ht : t.rank ≤ v.rank := of_decide_eq_true hv
  exact Nat.le_trans (show s.rank ≤ t.rank from h) ht

end Severity

/-- States with a log, and the states without the lines below a minimum severity. -/
structure Muting (σ : Type) where
  lines : σ → List Record
  thin : Severity → σ → σ
  lines_thin (minimum : Severity) (x : σ) :
    lines (thin minimum x) = (lines x).filter fun r => minimum.enabled r.severity
  thin_thin {s t : Severity} (h : s ≤ t) (x : σ) : thin t (thin s x) = thin t x
  thin_trace (x : σ) : thin .trace x = x

variable {σ α : Type}

/-- The run with a higher minimum against the one with a lower: the same answers, the same state but for the
lines that are left out, and of the lines on each stream those that the minimum lets through. -/
structure Muting.Agrees (mu : Muting σ) (s t : Severity) (a b : σ × α) : Prop where
  answers : b.2 = a.2
  state : b.1 = mu.thin t a.1
  lines : ∀ stream, written t stream (mu.lines b.1) =
    (written s stream (mu.lines a.1)).filter fun r => t ≤ r.severity

theorem filter_written {s t : Severity} (h : s ≤ t) (stream : Stream) (rs : List Record) :
    (written s stream rs).filter (fun r => t ≤ r.severity) = written t stream rs := by
  rw [written, List.filter_filter]
  apply List.filter_congr
  intro r _
  cases ht : t.enabled r.severity with
  | false => simp [show decide (t ≤ r.severity) = false from ht]
  | true => simp [show decide (t ≤ r.severity) = true from ht, Severity.enabled_of_le h ht]

theorem written_enabled (t : Severity) (stream : Stream) (rs : List Record) :
    written t stream (rs.filter fun r => t.enabled r.severity) = written t stream rs := by
  rw [written, written, List.filter_filter]
  apply List.filter_congr
  intro r _
  cases t.enabled r.severity <;> simp

/-- The lowest minimum gives the run itself, and runs with any two minima agree. -/
structure Muting.Indifferent (mu : Muting σ) (run : σ × α) (runAt : Severity → σ × α) : Prop where
  trace : runAt .trace = run
  agrees (s t : Severity) : s ≤ t → mu.Agrees s t (runAt s) (runAt t)

theorem Muting.indifferent (mu : Muting σ) {run : σ × α} {runAt : Severity → σ × α}
    (hrun : ∀ minimum, runAt minimum = (mu.thin minimum run.1, run.2)) :
    mu.Indifferent run runAt := by
  refine ⟨?_, fun s t h => ⟨?_, ?_, fun stream => ?_⟩⟩
  · rw [hrun, mu.thin_trace]
  · rw [hrun, hrun]
  · rw [hrun, hrun]
    exact (mu.thin_thin h run.1).symm
  · rw [hrun, hrun, mu.lines_thin, mu.lines_thin, written_enabled, written_enabled, filter_written h]

end ReplicaRouting.Log
