import ReplicaRouting.Proofs.WaitList.Order
import ReplicaRouting.Proofs.WaitList.Steady
/-!
Calls with their answers. Only an advance changes the latest position, and its answer tells whether it was
accepted or refused.
-/

namespace ReplicaRouting.WaitList

open Relation (ReflTransGen)

namespace Call

/-- The position of an advance that was accepted, and how many callbacks it has fired. -/
def accepted? : Call × Answer → Option (Lsn × Nat)
  | (.advance lsn, .count n) => some (lsn, n)
  | _ => none

/-- The latest position at an advance that was refused, and the position that was refused. -/
def refused? : Call × Answer → Option (Lsn × Lsn)
  | (.advance _, .refused (.regression latest attempted)) => some (latest, attempted)
  | _ => none

end Call

def acceptedIn (ps : List (Call × Answer)) : List Lsn := (ps.filterMap Call.accepted?).map (·.1)

def refusedIn (ps : List (Call × Answer)) : List (Lsn × Lsn) := ps.filterMap Call.refused?

namespace State

def transcript (s : State) (cs : List Call) : List (Call × Answer) := cs.zip (s.calls cs).2

@[simp] theorem transcript_cons (s : State) (c : Call) (cs : List Call) :
    s.transcript (c :: cs) = (c, (s.call c).2) :: (s.call c).1.transcript cs := rfl

theorem calls_cons (s : State) (c : Call) (cs : List Call) :
    (s.calls (c :: cs)).1 = ((s.call c).1.calls cs).1 := rfl

theorem call_steady (s : State) (c : Call) : (s.begin c).1.Steady (s.call c).1 :=
  Machine.steps_steady (Machine.run_steps (s.begun c))

theorem queue_call (s : State) (c : Call) : (s.call c).1.queue = [] :=
  (Machine.idle_of_step (Machine.step_run _)).2

/-- Between two calls nothing is under way, and a list in use keeps what is due where it belongs. -/
structure Ready (s : State) : Prop where
  queue : s.queue = []
  phased : s.dropped = false → (s.ledger none).Phased

theorem opened_ready (initial : Lsn) (metrics : Metrics) : (opened initial metrics).Ready :=
  ⟨rfl, fun _ => (opened_balanced initial metrics).2⟩

variable {s : State}

theorem dropped_begin (h : s.dropped = true) (c : Call) : (s.begin c).1.dropped = true := by
  cases c with
  | act a => exact ((Steady.refl s).perform a).dropped.trans h
  | advance lsn => exact (congrArg (·.1.dropped) (advance_of_dropped h)).trans h
  | drop => simp only [begin, State.drop, h, if_true]

theorem dropped_drop (s : State) : (s.begin .drop).1.dropped = true := by
  by_cases h : s.dropped = true
  · exact dropped_begin h .drop
  · simp [begin, State.drop, h]

theorem Ready.call (h : s.Ready) (c : Call) : (s.call c).1.Ready := by
  refine ⟨s.queue_call c, fun hl => ?_⟩
  have hb : (s.begin c).1.dropped = false := (s.call_steady c).dropped.symm.trans hl
  have hs : s.dropped = false := by
    apply Bool.eq_false_iff.mpr
    intro hd
    exact absurd ((dropped_begin hd c).symm.trans hb) (by decide)
  have hc : c ≠ .drop := by
    rintro rfl
    exact absurd (s.dropped_drop.symm.trans hb) (by decide)
  have ht := (call_turns ⟨hs, h.queue⟩ hc).2
  clear hl
  -- every turn of the call keeps the phases
  generalize (s.call c).1.ledger none = v at ht
  induction ht with
  | refl => exact h.phased hs
  | tail _ h ih => exact ih.turn h

theorem Ready.calls (h : s.Ready) (cs : List Call) : (s.calls cs).1.Ready := by
  induction cs generalizing s with
  | nil => exact h
  | cons c cs ih => exact ih (h.call c)

theorem call_idle {t : State} {c : Call} {a : Answer} (hb : s.begin c = (t, [], a))
    (hq : t.queue = []) : s.call c = (t, a) := by
  rw [State.call, hb]
  dsimp only
  rw [Machine.run_at_rest hq]

/-- A refused advance is answered at once. It leaves a count and a line. -/
theorem Ready.call_refused (h : s.Ready) (hd : s.dropped = false) {lsn : Lsn} (hl : lsn < s.latest) :
    s.call (.advance lsn) =
      ({ s with metrics := s.metrics.countRegression }.log (refusal s.latest lsn),
        .refused (.regression s.latest lsn)) :=
  call_idle (advance_of_lt (by simp [hd]) hl) h.queue

theorem Ready.call_accepted (h : s.Ready) (hd : s.dropped = false) {lsn : Lsn} (hl : s.latest ≤ lsn) :
    ∃ fired, (s.call (.advance lsn)).2 = .count fired := by
  obtain ⟨new, -, -, -, ha⟩ := call_advance ⟨hd, h.queue⟩ (h.phased hd) hl
  exact ⟨_, ha⟩

/-- How a call is answered, and the latest position after it. -/
inductive Verdict (s : State) : Call → Answer → Lsn → Prop
  | refused {lsn : Lsn} (hd : s.dropped = false) (h : lsn < s.latest) :
      Verdict s (.advance lsn) (.refused (.regression s.latest lsn)) s.latest
  | accepted {lsn : Lsn} (hd : s.dropped = false) (h : s.latest ≤ lsn) (fired : Nat) :
      Verdict s (.advance lsn) (.count fired) lsn
  | other {c : Call} {a : Answer} (ha : Call.accepted? (c, a) = none)
      (hr : Call.refused? (c, a) = none) : Verdict s c a s.latest

theorem Ready.verdict (h : s.Ready) (c : Call) : s.Verdict c (s.call c).2 (s.call c).1.latest := by
  cases c with
  | act a =>
    rw [(s.call_steady (.act a)).latest.trans ((Steady.refl s).perform a).latest]
    exact .other rfl rfl
  | drop =>
    have hl : (s.begin .drop).1.latest = s.latest := by
      simp only [begin, State.drop]
      split <;> rfl
    rw [(s.call_steady .drop).latest.trans hl]
    exact .other rfl rfl
  | advance lsn =>
    by_cases hd : s.dropped = true
    · rw [call_idle (c := .advance lsn) (advance_of_dropped hd) h.queue]
      exact .other rfl rfl
    · have hf := Bool.eq_false_iff.mpr hd
      by_cases hl : lsn < s.latest
      · rw [h.call_refused hf hl]
        exact .refused hf hl
      · have hs := s.call_steady (.advance lsn)
        have hb : s.begin (.advance lsn) = _ := advance_of_le hd hl
        rw [hb] at hs
        obtain ⟨fired, ha⟩ := h.call_accepted hf hl
        rw [ha, hs.latest]
        exact .accepted hf hl fired

end State
end ReplicaRouting.WaitList
