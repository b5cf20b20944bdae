import ReplicaRouting.Proofs.WaitList.Reading
import ReplicaRouting.Proofs.WaitList.Transcript
/-!
A refused advance leaves its count and its line, and nothing else: the run without the refused advances is
the same run, but for these.
-/

namespace ReplicaRouting.WaitList

open Relation (ReflTransGen)

def Reading.unrefused : Reading where
  count _ := 0
  count_next _ := rfl
  keeps r := r.event ≠ Log.Event.lsnRegression.name

/-- A call with what is seen of its answer. -/
def Reading.seen (b : Reading) (p : Call × Answer) : Call × Answer := (p.1, b.answer p.2)

theorem Reading.refused?_seen (b : Reading) (p : Call × Answer) :
    Call.refused? (b.seen p) = Call.refused? p := by
  obtain ⟨c, a⟩ := p
  cases c with
  | act | drop => rfl
  | advance lsn => cases a <;> rfl

theorem Reading.refusedIn_seen (b : Reading) (ps : List (Call × Answer)) :
    refusedIn (ps.map b.seen) = refusedIn ps := by
  rw [refusedIn, List.filterMap_map]
  exact congrArg (ps.filterMap ·) (funext b.refused?_seen)

def keptIn (ps : List (Call × Answer)) : List (Call × Answer) :=
  ps.filter fun p => (Call.refused? p).isNone

theorem refusedIn_keptIn (ps : List (Call × Answer)) : refusedIn (keptIn ps) = [] := by
  simp only [refusedIn, keptIn, List.filterMap_eq_nil_iff, List.mem_filter, Option.isNone_iff_eq_none]
  exact fun p hp => hp.2

namespace State
variable {s s' : State}

/-! ### The latest position -/

/-- A call leaves the latest position where it was, or it is an advance that has moved it. -/
theorem Ready.acceptedIn_call (h : s.Ready) (c : Call) (ps : List (Call × Answer)) :
    let t := (s.call c).1
    let accepted := acceptedIn ((c, (s.call c).2) :: ps)
    t.latest = s.latest ∧ accepted = acceptedIn ps ∨
      s.latest ≤ t.latest ∧ accepted = t.latest :: acceptedIn ps := by
  have hv := h.verdict c
  dsimp only
  generalize (s.call c).2 = a, (s.call c).1.latest = latest at hv
  cases hv with
  | refused hd hl => exact .inl ⟨rfl, rfl⟩
  | accepted hd hl fired => exact .inr ⟨hl, rfl⟩
  | other ha hr => exact .inl ⟨rfl, by simp [acceptedIn, ha]⟩

theorem Ready.latest_le_call (h : s.Ready) (c : Call) : s.latest ≤ (s.call c).1.latest := by
  rcases h.acceptedIn_call c [] with ⟨hl, -⟩ | ⟨hl, -⟩
  · rw [hl]
    exact Lsn.lt_irrefl _
  · exact hl

theorem Ready.latest_calls (h : s.Ready) (cs : List Call) :
    let accepted := s.latest :: acceptedIn (s.transcript cs)
    accepted.Pairwise (· ≤ ·) ∧ (s.calls cs).1.latest ∈ accepted ∧
      ∀ l ∈ accepted, l ≤ (s.calls cs).1.latest := by
  induction cs generalizing s with
  | nil =>
    refine ⟨List.pairwise_singleton .., List.mem_singleton_self _, fun l hl => ?_⟩
    rw [List.mem_singleton.mp hl]
    exact Lsn.lt_irrefl _
  | cons c cs ih =>
    obtain ⟨hsorted, hmem, hmax⟩ := ih (h.call c)
    rw [calls_cons, transcript_cons]
    rcases h.acceptedIn_call c ((s.call c).1.transcript cs) with ⟨hl, ha⟩ | ⟨hl, ha⟩
    · rw [ha, ← hl]
      exact ⟨hsorted, hmem, hmax⟩
    · rw [ha]
      refine ⟨List.pairwise_cons.mpr ⟨fun l hm => ?_, hsorted⟩, List.mem_cons_of_mem _ hmem,
        fun l hm => ?_⟩
      · rcases List.mem_cons.mp hm with rfl | hm
        · exact hl
        · exact Lsn.le_trans hl ((List.pairwise_cons.mp hsorted).1 l hm)
      · rcases List.mem_cons.mp hm with rfl | hm
        · exact Lsn.le_trans hl (hmax _ (List.mem_cons_self ..))
        · exact hmax l hm

/-! ### The count and the lines -/

/-- Further refused advances, each with one count and one line. -/
structure Regressed (s s' : State) (ps : List (Lsn × Lsn)) : Prop where
  regressions : s'.metrics.regressions = s.metrics.regressions + ps.length.toUInt64
  history : ∃ new, s'.history = s.history ++ new ∧
    linesOf .lsnRegression new = ps.map fun p => refusal p.1 p.2

theorem Regressed.trans {s'' : State} {ps qs : List (Lsn × Lsn)} (h : s.Regressed s' ps)
    (h' : s'.Regressed s'' qs) : s.Regressed s'' (ps ++ qs) := by
  obtain ⟨new, hn, hl⟩ := h.history
  obtain ⟨more, hm, hl'⟩ := h'.history
  refine ⟨?_, new ++ more, ?_, ?_⟩
  · rw [h'.regressions, h.regressions, List.length_append, UInt64.add_assoc]
    exact congrArg _ (UInt64.ofNat_add ..).symm
  · rw [hm, hn, List.append_assoc]
  · rw [linesOf_append, hl, hl', List.map_append]

theorem Steady.regressed (h : s.Steady s') : s.Regressed s' [] :=
  ⟨h.regressions.trans (UInt64.add_zero _).symm, h.history⟩

theorem Regressed.refused (s : State) (lsn : Lsn) :
    s.Regressed ({ s with metrics := s.metrics.countRegression }.log (refusal s.latest lsn))
      [(s.latest, lsn)] := by
  refine ⟨rfl, [.logged (refusal s.latest lsn)], rfl, ?_⟩
  rw [linesOf_logged]
  exact if_pos rfl

theorem Ready.regressed_call (h : s.Ready) (c : Call) :
    s.Regressed (s.call c).1 (refusedIn [(c, (s.call c).2)]) := by
  have hc := (s.call_steady c).regressed
  have hs := (Steady.refl s).regressed
  cases c with
  | act a => exact (((Steady.refl s).perform a).regressed).trans hc
  | drop =>
    have hb : s.Regressed (s.begin .drop).1 [] := by
      simp only [begin, State.drop]
      split
      · exact hs
      · exact ⟨(UInt64.add_zero _).symm, [], (List.append_nil _).symm, rfl⟩
    exact hb.trans hc
  | advance lsn =>
    by_cases hd : s.dropped = true
    · rw [call_idle (c := .advance lsn) (advance_of_dropped hd) h.queue]
      exact hs
    · by_cases hl : lsn < s.latest
      · rw [h.call_refused (Bool.eq_false_iff.mpr hd) hl]
        exact .refused s lsn
      · have hb : s.Regressed (s.begin (.advance lsn)).1 [] := by
          rw [begin, advance_of_le hd hl]
          exact ⟨(UInt64.add_zero _).symm, [.recorded lsn], rfl, rfl⟩
        obtain ⟨fired, ha⟩ := h.call_accepted (Bool.eq_false_iff.mpr hd) hl
        rw [ha]
        exact hb.trans hc

theorem Ready.regressed_calls (h : s.Ready) (cs : List Call) :
    s.Regressed (s.calls cs).1 (refusedIn (s.transcript cs)) := by
  induction cs generalizing s with
  | nil => exact (Steady.refl s).regressed
  | cons c cs ih =>
    have hcs := (h.regressed_call c).trans (ih (h.call c))
    rwa [refusedIn, refusedIn, ← List.filterMap_append] at hcs

/-! ### The run without the refused advances -/

open Reading

theorem alike_refused (s : State) (lsn : Lsn) :
    unrefused.Alike s ({ s with metrics := s.metrics.countRegression }.log (refusal s.latest lsn)) := by
  apply Alike.symm
  refine Alike.unseen ?_ (by simp [unrefused, refusal, Log.Record.of])
  exact .intro rfl rfl

theorem Ready.alike_calls (h : s.Ready) (h' : s'.Ready) (ha : unrefused.Alike s s')
    (cs : List Call) :
    let kept := keptIn (s.transcript cs)
    unrefused.Alike (s.calls cs).1 (s'.calls (kept.map (·.1))).1 ∧
      (s'.transcript (kept.map (·.1))).map unrefused.seen = kept.map unrefused.seen := by
  induction cs generalizing s s' with
  | nil => exact ⟨ha, rfl⟩
  | cons c cs ih =>
    rw [transcript_cons, calls_cons]
    cases hr : Call.refused? (c, (s.call c).2) with
    | none =>
      obtain ⟨hac, hans⟩ := ha.call c
      obtain ⟨hs, ht⟩ := ih (h.call c) (h'.call c) hac
      rw [keptIn, List.filter_cons_of_pos (by simp [hr])]
      refine ⟨hs, congrArg₂ List.cons ?_ ht⟩
      exact congrArg (c, ·) hans.symm
    | some p =>
      -- the refused advance is left out on the other side
      have hc : unrefused.Alike (s.call c).1 s' := by
        have hv := h.verdict c
        generalize (s.call c).2 = a, (s.call c).1.latest = latest at hv hr
        cases hv with
        | accepted => cases hr
        | other _ hn => cases hn.symm.trans hr
        | @refused lsn hd hl =>
          rw [h.call_refused hd hl]
          exact (alike_refused s lsn).symm.trans ha
      obtain ⟨hs, ht⟩ := ih (h.call c) h' hc
      rw [keptIn, List.filter_cons_of_neg (by simp [hr])]
      exact ⟨hs, ht⟩

/-- An advance is refused exactly if its position is below the latest. It is answered with both positions,
counted and logged. The latest position is the greatest of the first one and those of the accepted advances,
also while a call runs, and no call moves it back. The run without the refused advances ends in the same
list and gives the other calls the same answers, but for the count and the lines of the refused. -/
theorem calls_refuse_traceless (initial : Lsn) (metrics : Metrics) (cs : List Call) :
    let s := ((opened initial metrics).calls cs).1
    let script := (opened initial metrics).transcript cs
    let refused := refusedIn script
    let accepted := initial :: acceptedIn script
    let kept := (keptIn script).map (·.1)
    let t := ((opened initial metrics).calls kept).1
    (s.dropped = false → ∀ lsn,
      ((∃ e, (s.call (.advance lsn)).2 = .refused e) ↔
        lsn.view < s.latest.view ∨
          (lsn.view = s.latest.view ∧ lsn.sequence < s.latest.sequence)) ∧
      (lsn < s.latest → s.call (.advance lsn) =
        ({ s with
          metrics := { s.metrics with regressions := s.metrics.regressions + 1 }
          history := s.history ++ [.logged ⟨.fatal, "LSN_REGRESSION",
            [("attempted", lsn.text), ("latest", s.latest.text)]⟩] },
          .refused (.regression s.latest lsn)))) ∧
    (accepted.Pairwise (· ≤ ·) ∧ s.latest ∈ accepted ∧ (∀ l ∈ accepted, l ≤ s.latest) ∧
      ∀ c, s.latest ≤ (s.call c).1.latest ∧
        ∀ m, ReflTransGen Machine.Step (s.begun c) m → m.state.latest = (s.call c).1.latest) ∧
    (s.metrics.regressions = metrics.regressions + refused.length.toUInt64 ∧
      linesOf .lsnRegression s.history = refused.map fun p => refusal p.1 p.2) ∧
    unrefused.state t = unrefused.state s ∧ t.metrics.regressions = metrics.regressions ∧
      linesOf .lsnRegression t.history = [] ∧
      ((opened initial metrics).transcript kept).map unrefused.seen =
        (keptIn script).map unrefused.seen := by
  intro s script refused accepted kept t
  have h₀ := opened_ready initial metrics
  have h : s.Ready := h₀.calls cs
  obtain ⟨hsorted, hmem, hmax⟩ := h₀.latest_calls cs
  obtain ⟨halike, hseen⟩ := h₀.alike_calls h₀ (.refl _) cs
  -- the second run is given no call that the first refused, and refuses none
  have hnone : refusedIn ((opened initial metrics).transcript kept) = [] := by
    rw [← unrefused.refusedIn_seen, hseen, unrefused.refusedIn_seen, refusedIn_keptIn]
  obtain ⟨hcount, new, hnew, hlines⟩ := h₀.regressed_calls cs
  obtain ⟨hcount', new', hnew', hlines'⟩ := h₀.regressed_calls kept
  refine ⟨fun hd lsn => ⟨?_, h.call_refused hd⟩, ⟨hsorted, hmem, hmax, fun c =>
    ⟨h.latest_le_call c, fun m hm => ?_⟩⟩, ⟨hcount, ?_⟩, halike.state_eq.symm, ?_, ?_, hseen⟩
  · constructor
    · rintro ⟨e, he⟩
      apply Decidable.byContradiction
      intro hl
      obtain ⟨fired, ha⟩ := h.call_accepted hd hl
      exact nomatch ha.symm.trans he
    · intro hl
      exact ⟨_, congrArg (·.2) (h.call_refused hd hl)⟩
  · exact (Machine.steps_steady hm).latest.trans (s.call_steady c).latest.symm
  · rw [show s.history = [] ++ new from hnew]
    exact hlines
  · rw [hcount', hnone]
    exact UInt64.add_zero _
  · rw [show t.history = [] ++ new' from hnew', List.nil_append, hlines', hnone, List.map_nil]

/-- Two advances are refused, the second with a higher sequence of an earlier view, while a callback that
panics has registered and cancelled in between. -/
theorem calls_refuse_traceless_nested :
    let cs : List Call := [
      .act (.register "a" ⟨1, 2⟩ [.register "b" ⟨1, 2⟩ [] true, .register "c" ⟨2, 9⟩ [] false] true),
      .act (.await "r" ⟨2, 0⟩), .advance ⟨1, 5⟩, .advance ⟨1, 4⟩, .act (.cancel "c"), .advance ⟨2, 1⟩,
      .advance ⟨1, 7⟩, .act .metrics]
    let s := ((opened .zero {}).calls cs).1
    s.dropped = false ∧ refusedIn ((opened .zero {}).transcript cs) =
      [(⟨1, 5⟩, ⟨1, 4⟩), (⟨2, 1⟩, ⟨1, 7⟩)] ∧
      ((∃ e, (s.call (.advance ⟨1, 8⟩)).2 = .refused e) ↔
        (1 : UInt32) < s.latest.view ∨ ((1 : UInt32) = s.latest.view ∧ (8 : UInt64) < s.latest.sequence)) ∧
      s.latest = ⟨2, 1⟩ := by
  intro cs s
  have hd : s.dropped = false := by decide +kernel
  obtain ⟨hrefused, -⟩ := calls_refuse_traceless .zero {} cs
  exact ⟨hd, by decide +kernel, (hrefused hd ⟨1, 8⟩).1, by decide +kernel⟩

end State
end ReplicaRouting.WaitList
