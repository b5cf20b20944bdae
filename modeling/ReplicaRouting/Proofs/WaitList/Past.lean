import ReplicaRouting.Proofs.WaitList.Moments
/-!
A list never reads its history. With anything else in it so far, the list goes on in the same way and adds the
same entries.
-/

namespace ReplicaRouting.WaitList

open Relation (ReflTransGen)

namespace State

/-- The list with more in its history, before all that is there. -/
def since (past : List Entry) (s : State) : State := { s with history := past ++ s.history }

def afresh (s : State) : State := { s with history := [] }

theorem since_afresh (s : State) : s.afresh.since s.history = s := by
  rw [since, afresh, List.append_nil]

section Since
variable (past : List Entry) (s : State)

@[simp] theorem waiters_since : (s.since past).waiters = s.waiters := rfl

@[simp] theorem queue_since : (s.since past).queue = s.queue := rfl

@[simp] theorem late_since : (s.since past).late = s.late := rfl

@[simp] theorem handles_since : (s.since past).handles = s.handles := rfl

@[simp] theorem results_since : (s.since past).results = s.results := rfl

theorem emit_since (e : Entry) : (s.since past).emit e = (s.emit e).since past := by
  simp only [emit, since, List.append_assoc]

theorem log_since (r : Log.Record) : (s.since past).log r = (s.log r).since past := emit_since ..

theorem settle_since (cell : Nat) (o : Result.Outcome Lsn) :
    (s.since past).settle cell o = Prod.map (since past) id (s.settle cell o) := by
  simp only [settle, emit, since, List.append_assoc]
  split <;> rfl

theorem start_since (w : Waiter) (lsn : Lsn) (place : Place) :
    (s.since past).start w lsn place = Prod.map (since past) id (s.start w lsn place) := by
  unfold start
  split
  · exact congrArg (·, _) (emit_since ..)
  · rw [emit_since, settle_since]

theorem hear_since (l : Listener) (o : Result.Outcome Lsn) :
    (s.since past).hear l o = Prod.map (since past) id (s.hear l o) :=
  congrArg (·, _) (emit_since ..)

theorem notify_since : (s.since past).notify = s.notify.map (Prod.map (since past) id) := by
  rw [notify, notify, queue_since]
  cases s.queue with
  | nil => rfl
  | cons p queue =>
    obtain ⟨w, lsn⟩ := p
    have h := start_since past { s with queue } w lsn .notifier
    exact congrArg (fun begun => some (begun.1, begun.2 ++ [.notifying lsn])) h

theorem accept_since (w : Waiter) : (s.since past).accept w = (s.accept w).since past := by
  simp only [accept, apply_ite (since past)]
  rfl

theorem register_since (target : Lsn) (callback : Callback) :
    (s.since past).register target callback = Prod.map (since past) id (s.register target callback) := by
  have h := emit_since past { s with tickets := s.tickets + 1 } (.registered s.tickets target)
  exact congrArg (·, _) ((congrArg (accept · _) h).trans (accept_since ..))

theorem remove_since (x : Handle) : (s.since past).remove x = (s.remove x).since past :=
  emit_since past { s with waiters := s.waiters.filter fun w => !w.isFor x } _

theorem withdraw_since (x : Handle) : (s.since past).withdraw x = (s.withdraw x).since past :=
  log_since past { s with metrics := s.metrics.countCancelled } _

theorem cancel_since (x : Handle) :
    (s.since past).cancel x = Prod.map (since past) id (s.cancel x) := by
  simp only [cancel, remove_since, settle_since, waiters_since]
  split
  · exact congrArg (·, _) (emit_since ..)
  · split
    · exact congrArg (·, _) (withdraw_since ..)
    · rfl

theorem listen_since (cell : Nat) (tag : String) (steps : List Action) (panics : Bool) :
    (s.since past).listen cell tag steps panics = Prod.map (since past) id (s.listen cell tag steps panics) := by
  simp only [listen, hear, emit, since, List.append_assoc]
  split <;> simp [since]

theorem advance_since (lsn : Lsn) :
    (s.since past).advance lsn = Prod.map (since past) id (s.advance lsn) := by
  rw [advance, advance, apply_ite (Prod.map (since past) id), apply_ite (Prod.map (since past) id)]
  refine ite_congr rfl (fun _ => rfl) fun _ =>
    ite_congr rfl (fun _ => congrArg (·, _) ?_) fun _ => congrArg (·, _) ?_
  all_goals simp only [log, emit, since, List.append_assoc]

theorem rest_since (lsn : Lsn) (fired : Nat) : (s.since past).rest lsn fired = (s.rest lsn fired).since past :=
  log_since past { s with advancing := false, metrics := s.metrics.countFired fired } _

theorem drop_since : (s.since past).drop = Prod.map (since past) id s.drop := by
  rw [drop, drop, apply_ite (Prod.map (since past) id)]
  rfl

theorem discard_since (w : Waiter) : (s.since past).discard w = Prod.map (since past) id (s.discard w) := by
  unfold discard
  split
  · rfl
  · exact settle_since ..

theorem perform_since (a : Action) : (s.since past).perform a = Prod.map (since past) id (s.perform a) := by
  cases a with
  | poll name =>
    simp only [perform, since]
    split
    · rfl
    · split <;> rfl
  | listen name tag steps panics =>
    simp only [perform, listen_since, results_since]
    cases s.results.find? name <;> rfl
  | register tag target steps panics =>
    simp only [perform, register_since, apply_ite (Prod.map (since past) id)]
    rfl
  | await name target =>
    simp only [perform, apply_ite (Prod.map (since past) id)]
    refine ite_congr rfl (fun _ => rfl) fun _ => ?_
    let pending : State := { s with
      cells := s.cells ++ [⟨none, []⟩], results := s.results.bind name s.cells.length }
    have h := register_since past pending target (.settle s.cells.length)
    exact congrArg (fun r : State × Handle => (r.1, ([] : List Frame), Answer.nothing)) h
  | cancel tag =>
    simp only [perform, cancel_since, handles_since, apply_ite (Prod.map (since past) id)]
    refine ite_congr rfl (fun _ => rfl) fun _ => ?_
    cases s.handles.find? tag <;> rfl
  | handle tag =>
    simp only [perform, handles_since, apply_ite (Prod.map (since past) id)]
    refine ite_congr rfl (fun _ => rfl) fun _ => ?_
    cases s.handles.find? tag <;> rfl
  | latest | pending | metrics | describe | misread =>
    simp only [perform, apply_ite (Prod.map (since past) id)]
    rfl

theorem begin_since (c : Call) : (s.since past).begin c = Prod.map (since past) id (s.begin c) := by
  cases c with
  | act a => exact perform_since ..
  | advance lsn => exact advance_since ..
  | drop => exact drop_since ..

end Since
end State

namespace Machine

def since (past : List Entry) (m : Machine) : Machine := { m with state := m.state.since past }

section Since
variable (past : List Entry) (m : Machine)

@[simp] theorem stack_since : (m.since past).stack = m.stack := rfl

theorem unwind_since : (m.since past).unwind = m.unwind.since past := by
  rw [unwind, unwind, stack_since]
  cases caught? Frame.panicRecord? m.stack with
  | none => rfl
  | some p => exact congrArg (Machine.mk · p.2 m.answer) (m.state.log_since past p.1)

theorem step_since : (m.since past).step = m.step.map (since past) := by
  obtain ⟨s, stack, answer⟩ := m
  cases stack with
  | nil =>
    simp only [step, since, State.notify_since]
    cases s.notify <;> rfl
  | cons f below =>
    cases f with
    | body tag steps panics =>
      cases steps with
      | cons a steps =>
        simp only [step, since, State.perform_since]
        rfl
      | nil =>
        cases panics with
        | false => rfl
        | true => exact congrArg some (unwind_since past ⟨s, below, answer⟩)
    | answering tag a => exact congrArg (fun t => some (Machine.mk t below answer)) (s.emit_since past _)
    | notifying lsn => rfl
    | delivering o rest position total =>
      cases rest with
      | nil => rfl
      | cons l rest =>
        simp only [step, since, State.hear_since]
        rfl
    | batch lsn round rest taken =>
      cases rest with
      | cons w rest =>
        simp only [step, since, State.start_since]
        rfl
      | nil =>
        simp only [step, since, State.late_since]
        cases s.late with
        | nil => exact congrArg (fun t => some (Machine.mk t below _)) (s.rest_since past lsn taken)
        | cons w late =>
          have h := State.start_since past { s with late := [] } w lsn (.batch (round + 1))
          exact congrArg (fun begun : State × List Frame => some (Machine.mk begun.1
            (begun.2 ++ .batch lsn (round + 1) late (taken + late.length + 1) :: below) answer)) h
    | withdrawing x => exact congrArg (fun t => some (Machine.mk t below answer)) (s.withdraw_since past x)
    | discarding rest =>
      simp only [step, since, State.notify_since, State.discard_since]
      cases s.notify with
      | some begun => rfl
      | none => cases rest <;> rfl

theorem run_since : (m.since past).run = m.run.since past := by
  refine run_rel (R := fun k k' => k' = k.since past) ?_ rfl
  rintro k _ rfl
  rw [step_since]
  cases k.step with
  | none => exact .none
  | some k' => exact .some rfl

end Since

section Moments
variable {past : List Entry} {m m' : Machine}

theorem begun_since (past : List Entry) (s : State) (c : Call) :
    (s.since past).begun c = (s.begun c).since past := by
  simp only [State.begun, State.begin_since]
  rfl

theorem steps_since (h : ReflTransGen Step m m') (past : List Entry) :
    ReflTransGen Step (m.since past) (m'.since past) := by
  refine h.lift (Machine.since past) fun k k' hk => ?_
  show (k.since past).step = _
  rw [step_since, show k.step = some k' from hk]
  rfl

theorem Next.since (h : m.Next m') (past : List Entry) : (m.since past).Next (m'.since past) := by
  cases h with
  | step h => exact .step (by rw [step_since, h]; rfl)
  | call c hs hq => exact begun_since past m.state c ▸ .call c hs hq

theorem Next.of_since (h : (m.since past).Next m') : ∃ k, m' = k.since past ∧ m.Next k := by
  cases h with
  | step h =>
    rw [step_since, Option.map_eq_some_iff] at h
    obtain ⟨k, hk, rfl⟩ := h
    exact ⟨k, rfl, .step hk⟩
  | call c hs hq => exact ⟨_, begun_since past m.state c, .call c hs hq⟩

end Moments
end Machine

namespace State
variable (past : List Entry) (s : State)

theorem call_since (c : Call) : (s.since past).call c = Prod.map (since past) id (s.call c) := by
  have h := (s.begun c).run_since past
  rw [← Machine.begun_since] at h
  exact congrArg (fun m : Machine => (m.state, m.answer)) h

theorem calls_since (cs : List Call) : (s.since past).calls cs = Prod.map (since past) id (s.calls cs) := by
  induction cs generalizing s with
  | nil => rfl
  | cons c cs ih =>
    simp only [calls, call_since, Prod.map_fst, ih]
    rfl

end State

/-! ### Two pasts -/

variable {past past' : List Entry}

/-- The lists are the same since one past and another. -/
def State.SameSince (past past' : List Entry) (s s' : State) : Prop :=
  ∃ t : State, s = t.since past ∧ s' = t.since past'

def Machine.SameSince (past past' : List Entry) (m m' : Machine) : Prop :=
  ∃ k : Machine, m = k.since past ∧ m' = k.since past'

theorem State.SameSince.calls {s s' : State} (h : State.SameSince past past' s s') (cs : List Call) :
    State.SameSince past past' (s.calls cs).1 (s'.calls cs).1 ∧ (s.calls cs).2 = (s'.calls cs).2 := by
  obtain ⟨t, rfl, rfl⟩ := h
  rw [calls_since, calls_since]
  exact ⟨⟨_, rfl, rfl⟩, rfl⟩

theorem State.SameSince.machine {s s' : State} (h : State.SameSince past past' s s') (stack : List Frame)
    (answer : Answer) : Machine.SameSince past past' ⟨s, stack, answer⟩ ⟨s', stack, answer⟩ := by
  obtain ⟨t, rfl, rfl⟩ := h
  exact ⟨⟨t, stack, answer⟩, rfl, rfl⟩

namespace Machine
variable {m m' k : Machine}

theorem SameSince.symm (h : SameSince past past' m m') : SameSince past' past m' m := by
  obtain ⟨k, hm, hm'⟩ := h
  exact ⟨k, hm', hm⟩

theorem SameSince.run (h : SameSince past past' m m') :
    State.SameSince past past' m.run.state m'.run.state := by
  obtain ⟨k, rfl, rfl⟩ := h
  rw [run_since, run_since]
  exact ⟨_, rfl, rfl⟩

end Machine
end ReplicaRouting.WaitList
