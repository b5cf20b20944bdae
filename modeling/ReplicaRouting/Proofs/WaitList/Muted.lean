import ReplicaRouting.Proofs.Log.Muting
import ReplicaRouting.Proofs.WaitList.Reading
/-!
Runs of a wait list with a minimum severity: each step leaves out the lines below it.
-/

namespace ReplicaRouting.WaitList

def Entry.enabled (minimum : Log.Severity) : Entry → Bool
  | .logged r => minimum.enabled r.severity
  | _ => true

namespace State

def thin (minimum : Log.Severity) (s : State) : State :=
  { s with history := s.history.filter (·.enabled minimum) }

def muting : Log.Muting State where
  lines s := s.history.filterMap (·.logged?)
  thin := thin
  lines_thin minimum s := by
    simp only [thin, List.filterMap_filter, List.filter_filterMap]
    congr 1
    funext e
    cases e with
    | logged r => cases h : minimum.enabled r.severity <;>
        simp [Entry.enabled, Entry.logged?, Option.filter, h]
    | _ => rfl
  thin_thin {s t} h x := by
    simp only [thin, List.filter_filter]
    congr 1
    apply List.filter_congr
    intro e _
    cases e with
    | logged r =>
      cases ht : t.enabled r.severity with
      | false => simp [Entry.enabled, ht]
      | true => simp [Entry.enabled, ht, Log.Severity.enabled_of_le h ht]
    | _ => rfl
  thin_trace s := by
    have h : s.history.filter (·.enabled .trace) = s.history := by
      apply List.filter_eq_self.mpr
      intro e _
      cases e with
      | logged r => exact Log.Severity.trace_enabled r.severity
      | _ => rfl
    rw [thin, h]

end State

def Machine.runAt (minimum : Log.Severity) (m : Machine) : Machine :=
  match _h : m.step with
  | none => m
  | some m' => runAt minimum { m' with state := m'.state.thin minimum }
termination_by m.weight
decreasing_by exact (weight_step _h : m'.weight < m.weight)

namespace State

def callAt (minimum : Log.Severity) (s : State) (c : Call) : State × Answer :=
  let begun := s.begin c
  let m := Machine.runAt minimum ⟨begun.1.thin minimum, begun.2.1, begun.2.2⟩
  (m.state, m.answer)

def callsAt (minimum : Log.Severity) (s : State) : List Call → State × List Answer
  | [] => (s.thin minimum, [])
  | c :: cs =>
    let called := s.callAt minimum c
    let rest := called.1.callsAt minimum cs
    (rest.1, called.2 :: rest.2)

end State

/-- Sees the lines down to the minimum, and everything else. -/
def Reading.loud (minimum : Log.Severity) : Reading where
  count := id
  count_next h := congrArg (· + 1) h
  keeps r := minimum.enabled r.severity

namespace Reading
variable {minimum : Log.Severity} {s s' : State} {m m' : Machine}

theorem answer_loud (a : Answer) : (loud minimum).answer a = a := by
  cases a <;> rfl

theorem entries_loud (es : List Entry) :
    (loud minimum).entries es = es.filter (·.enabled minimum) := by
  rw [entries, ← List.filterMap_eq_filter]
  congr 1
  funext e
  cases e with
  | logged r => cases h : minimum.enabled r.severity <;>
      simp [seen?, Entry.enabled, Option.guard, loud, h]
  | answered tag a => exact congrArg (some <| Entry.answered tag ·) (answer_loud a)
  | _ => rfl

theorem state_loud (s : State) : (loud minimum).state s = s.thin minimum := by
  simp only [state, State.thin, entries_loud]
  rfl

theorem Alike.thin (h : (loud minimum).Alike s s') : (loud minimum).Alike s (s'.thin minimum) := by
  obtain ⟨hr, hh⟩ := h
  refine .intro hr (hh.trans ?_)
  simp only [entries_loud, List.filter_filter, Bool.and_self]

theorem Machines.runAt (h : (loud minimum).Machines m m') :
    (loud minimum).Machines m.run (m'.runAt minimum) := by
  induction m using Machine.run.induct generalizing m' with
  | case1 m hn =>
    rw [Machine.run, hn, Machine.runAt, h.halts hn]
    exact h
  | case2 m k hn ih =>
    obtain ⟨k', hn', hk⟩ := h.moves hn
    rw [Machine.run, hn, Machine.runAt, hn']
    exact ih ⟨hk.state.thin, hk.stack, hk.answer⟩

theorem Alike.callAt (h : (loud minimum).Alike s s') (c : Call) :
    (loud minimum).Alike (s.call c).1 (s'.callAt minimum c).1 ∧
      (s'.callAt minimum c).2 = (s.call c).2 := by
  obtain ⟨hd, hf, ha⟩ := h.begin c
  have hm : (loud minimum).Machines ⟨(s.begin c).1, (s.begin c).2.1, (s.begin c).2.2⟩
      ⟨(s'.begin c).1.thin minimum, (s'.begin c).2.1, (s'.begin c).2.2⟩ :=
    ⟨hd.thin, hf ▸ .refl _, ha⟩
  obtain ⟨hs, -, ha⟩ := hm.runAt
  rw [answer_loud, answer_loud] at ha
  exact ⟨hs, ha.symm⟩

theorem Alike.callsAt (h : (loud minimum).Alike s s') (cs : List Call) :
    s'.callsAt minimum cs = ((s.calls cs).1.thin minimum, (s.calls cs).2) := by
  induction cs generalizing s s' with
  | nil =>
    have hs := h.state_eq
    rw [state_loud, state_loud] at hs
    exact congrArg (·, []) hs.symm
  | cons c cs ih =>
    obtain ⟨hs, ha⟩ := h.callAt c
    have hcs := ih hs
    rw [State.callsAt, State.calls]
    dsimp only
    rw [hcs, ha]

end Reading

theorem State.callsAt_eq (minimum : Log.Severity) (s : State) (cs : List Call) :
    s.callsAt minimum cs = (muting.thin minimum (s.calls cs).1, (s.calls cs).2) :=
  (Reading.Alike.refl s).callsAt cs

end ReplicaRouting.WaitList
