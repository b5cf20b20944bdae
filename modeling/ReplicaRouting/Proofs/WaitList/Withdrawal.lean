import Mathlib.Data.List.Forall2
import ReplicaRouting.Proofs.WaitList.Erasure
import ReplicaRouting.Proofs.WaitList.Moments
/-!
Registrations that are cancelled in time. The rest of the run is as if the registration had not been made and
nothing had gone by its handle.
-/

namespace ReplicaRouting.WaitList

open Relation (ReflTransGen)

def Call.isTally : Call → Bool
  | .act a => a.isTally
  | _ => false

def Call.Spares (ticket : Nat) (s : State) (c : Call) : Prop :=
  ∀ lsn, c = .advance lsn → s.latest ≤ lsn → ∀ w ∈ s.waiters, w.ticket = ticket → ¬ w.target ≤ lsn

namespace State

def callGoesBy (s : State) (ticket : Nat) : Call → Bool
  | .act a => s.goesBy ticket a
  | _ => false

/-- The calls that do not go by the handle of this registration, and their answers. -/
def transcriptWithout (gone : Nat) (s : State) : List Call → List (Call × Answer)
  | [] => []
  | c :: cs =>
    let called := s.call c
    let rest := called.1.transcriptWithout gone cs
    if s.callGoesBy gone c then rest else (c, called.2) :: rest

/-- The name stands for no handle any more. Steps of scripts that go by it do not reach the list. -/
def forget (s : State) (tag : String) : State := { s with handles := s.handles.unbind tag }

variable {s : State}

theorem call_unnamed (hq : s.queue = []) {tag : String} (hn : s.handles.find? tag = none) :
    (s.call (.act (.cancel tag))).1 = s ∧ (s.call (.act (.handle tag))).1 = s := by
  by_cases hd : s.dropped = true
  · have hc : s.begin (.act (.cancel tag)) = (s, [], .dropped) := by simp [begin, perform, hd]
    have hh : s.begin (.act (.handle tag)) = (s, [], .dropped) := by simp [begin, perform, hd]
    rw [call_idle hc hq, call_idle hh hq]
    exact ⟨rfl, rfl⟩
  · have hc : s.begin (.act (.cancel tag)) = (s, [], .noHandle) := by simp [begin, perform, hd, hn]
    have hh : s.begin (.act (.handle tag)) = (s, [], .noHandle) := by simp [begin, perform, hd, hn]
    rw [call_idle hc hq, call_idle hh hq]
    exact ⟨rfl, rfl⟩

theorem calls_history (hq : s.queue = []) (cs : List Call) :
    ∃ new, (s.calls cs).1.history = s.history ++ new := by
  obtain ⟨last, h⟩ := Machine.calls_moments hq cs .nothing
  exact Machine.moments_history h

theorem started_later (hq : s.queue = []) (cs : List Call) {t : Nat} (h : t ∈ startedIn s.history) :
    t ∈ startedIn (s.calls cs).1.history := by
  obtain ⟨new, hnew⟩ := calls_history hq cs
  rw [hnew, startedIn_append]
  exact List.mem_append_left _ h

theorem Orderly.started_of_due {initial : Lsn} (hs : s.Orderly initial) {lsn : Lsn} (h : s.latest ≤ lsn)
    {w : Waiter} (hw : w ∈ s.waiters) (ht : w.target ≤ lsn) :
    w.ticket ∈ startedIn (s.call (.advance lsn)).1.history := by
  obtain ⟨new, htrace, hstarted, -⟩ := call_advance hs.rest hs.phased h
  have hm : w.ticket ∈ startedIn new := by
    rw [hstarted]
    refine List.mem_append_left _ (List.mem_map.mpr ⟨w, ?_, rfl⟩)
    exact List.mem_filter.mpr ⟨hw, decide_eq_true ht⟩
  rw [← startedIn_trace, htrace, startedIn_append]
  exact List.mem_append_right _ hm

theorem Orderly.spares {initial : Lsn} (hs : s.Orderly initial) {c : Call} {cs : List Call} {t : Nat}
    (hn : t ∉ startedIn (s.calls (c :: cs)).1.history) : c.Spares t s := by
  rintro lsn rfl hle w hw rfl ht
  exact hn (started_later (s.queue_call (.advance lsn)) cs (hs.started_of_due hle hw ht))

end State

namespace Erasure
variable {initial : Lsn} {gone : Nat} {base : List Entry} {s s' : State}

theorem Alike.begin (h : Alike gone base s s') {c : Call} (hc : c ≠ .drop) (hx : c.Spares gone s) :
    Done gone base (c.isTally ∨ s.callGoesBy gone c) (s.begin c) (s'.begin c) := by
  cases c with
  | act a => exact h.perform a
  | advance lsn => exact h.advance (hx lsn rfl)
  | drop => exact absurd rfl hc

theorem Alike.call (h : Alike gone base s s') {c : Call} (hc : c ≠ .drop) (hx : c.Spares gone s) :
    Alike gone base (s.call c).1 (s'.call c).1 ∧
      ((c.isTally ∨ s.callGoesBy gone c) ∨ (s'.call c).2 = (s.call c).2.renumber gone) := by
  obtain ⟨hd, hf, -, ha⟩ := h.begin hc hx
  have hm : Machines gone base (c.isTally ∨ s.callGoesBy gone c)
      ⟨(s.begin c).1, (s.begin c).2.1, (s.begin c).2.2⟩
      ⟨(s'.begin c).1, (s'.begin c).2.1, (s'.begin c).2.2⟩ := ⟨hd, hf, ha⟩
  exact ⟨hm.run.state, hm.run.answer⟩

theorem Alike.call_gone (h : Alike gone base s s') (hq : s'.queue = []) {c : Call}
    (hg : s.callGoesBy gone c = true) : (s'.call c).1 = s' := by
  have hnone {tag : String} (ht : (s.handles.find? tag).any (·.ticket = gone) = true) :
      s'.handles.find? tag = none := by
    rcases hf : s.handles.find? tag with _ | x
    · rw [hf] at ht
      cases ht
    · rw [hf] at ht
      rw [h.named tag, hf, Option.bind_some, Handle.without?_gone (of_decide_eq_true ht)]
  cases c with
  | act a =>
    cases a with
    | cancel tag => exact (State.call_unnamed hq (hnone hg)).1
    | handle tag => exact (State.call_unnamed hq (hnone hg)).2
    | register | await | listen | latest | pending | metrics | describe | poll | misread => cases hg
  | advance | drop => cases hg

/-- As long as the registration's callback does not start, all other calls are answered alike. -/
theorem Alike.calls (h : Alike gone base s s') (hs : s.Orderly initial) (hq : s'.queue = []) {cs : List Call}
    (hc : .drop ∉ cs) (hn : gone ∉ startedIn (s.calls cs).1.history) :
    let kept := s.transcriptWithout gone cs
    let done := s'.calls (kept.map (·.1))
    Alike gone base (s.calls cs).1 done.1 ∧
      List.Forall₂ (fun p a => p.1.isTally ∨ a = p.2.renumber gone) kept done.2 := by
  induction cs generalizing s s' with
  | nil => exact ⟨h, .nil⟩
  | cons c cs ih =>
    have hne : c ≠ .drop := fun he => hc (he ▸ List.mem_cons_self ..)
    have hc' : .drop ∉ cs := fun hm => hc (List.mem_cons_of_mem _ hm)
    obtain ⟨ha, hanswer⟩ := h.call hne (hs.spares hn)
    have hs' : (s.call c).1.Orderly initial := hs.call hne
    cases hg : s.callGoesBy gone c with
    | true =>
      rw [h.call_gone hq hg] at ha
      simp only [State.transcriptWithout, hg, if_true]
      exact ih ha hs' hq hc' hn
    | false =>
      obtain ⟨hrest, hanswers⟩ := ih ha hs' (s'.queue_call c) hc' hn
      simp only [State.transcriptWithout, hg, Bool.false_eq_true, if_false]
      refine ⟨hrest, .cons ?_ hanswers⟩
      simpa only [hg, Bool.false_eq_true, or_false] using hanswer

end Erasure

/-! ### The registration -/

namespace State
variable {initial : Lsn} {s : State}

theorem Orderly.started_of_reached (hs : s.Orderly initial) {target : Lsn} (hl : ¬ s.latest < target)
    (tag : String) (steps : List Action) (panics : Bool) :
    s.tickets ∈ startedIn (s.call (.act (.register tag target steps panics))).1.history := by
  let w : Waiter := ⟨target, s.tickets, .script tag steps panics⟩
  let made : State := { s.emit (.registered s.tickets target) with
    tickets := s.tickets + 1
    metrics := s.metrics.countFired 1
    handles := s.handles.bind tag ⟨target, s.tickets⟩ }
  have hb : s.begin (.act (.register tag target steps panics)) =
      ({ made with queue := [(w, s.latest)] }, [], .position target) := by
    simp [begin, perform, hs.rest.live, register, accept, emit, hl, hs.advancing, hs.rest.queue, made, w]
  -- nothing is before it in the queue of the notifier
  let begun : Machine := ⟨(made.start w s.latest .notifier).1,
    (made.start w s.latest .notifier).2 ++ [.notifying s.latest], .position target⟩
  have hrun : Machine.run ⟨{ made with queue := [(w, s.latest)] }, [], .position target⟩ = begun.run := by
    have hstep : Machine.step ⟨{ made with queue := [(w, s.latest)] }, [], .position target⟩ = some begun := by
      simp [Machine.step, notify, begun, made, emit, hs.rest.queue]
    rw [Machine.run, hstep]
  obtain ⟨new, hnew, -⟩ := (Machine.steps_steady (Machine.run_steps begun)).history
  have hbegun : begun.state.history = made.history ++ [.started s.tickets (some tag) s.latest .notifier] := rfl
  have hm : s.tickets ∈ startedIn begun.state.history := by
    rw [hbegun, startedIn_append]
    exact List.mem_append_right _ (List.mem_singleton_self _)
  rw [State.call, hb]
  dsimp only
  rw [hrun, hnew, startedIn_append]
  exact List.mem_append_left _ hm

theorem Orderly.call_register (hs : s.Orderly initial) {target : Lsn} (hl : s.latest < target)
    (tag : String) (steps : List Action) (panics : Bool) :
    (s.call (.act (.register tag target steps panics))).1 =
      { s.emit (.registered s.tickets target) with
        tickets := s.tickets + 1
        waiters := insertWaiter ⟨target, s.tickets, .script tag steps panics⟩ s.waiters
        handles := s.handles.bind tag ⟨target, s.tickets⟩ } := by
  have hb : s.begin (.act (.register tag target steps panics)) =
      ({ s.emit (.registered s.tickets target) with
        tickets := s.tickets + 1
        waiters := insertWaiter ⟨target, s.tickets, .script tag steps panics⟩ s.waiters
        handles := s.handles.bind tag ⟨target, s.tickets⟩ }, [], .position target) := by
    simp [begin, perform, hs.rest.live, register, accept, emit, hl]
  rw [call_idle hb hs.rest.queue]

end State

namespace Erasure
variable {initial : Lsn} {s : State}

/-- Once a registration waits, the list without it is the one it was made in. -/
theorem alike_register (hs : s.Orderly initial)
    (hn : ∀ name x, s.handles.find? name = some x → x.ticket < s.tickets) {target : Lsn}
    (hl : s.latest < target) (tag : String) (steps : List Action) (panics : Bool) :
    Alike s.tickets s.history (s.call (.act (.register tag target steps panics))).1 (s.forget tag) := by
  have hold : ∀ w ∈ s.waiters, w.ticket < s.tickets := by
    intro w hw
    have hm := (hs.balanced.ahead w hw).1
    exact (hs.balanced.registered_iff _).mp (by rw [hm]; rfl)
  let w : Waiter := ⟨target, s.tickets, .script tag steps panics⟩
  have hw : w.ticket = s.tickets := rfl
  have hwaiters : others s.tickets (insertWaiter w s.waiters) = s.waiters :=
    (others_insertWaiter_gone hw _).trans (others_of_lt hold)
  have hlate : s.late = [] := hs.late
  have hqueue : s.queue = [] := hs.rest.queue
  rw [hs.call_register hl]
  have hscript : ∀ v ∈ insertWaiter w s.waiters, v.ticket = s.tickets → ∀ cell, v.callback ≠ .settle cell := by
    intro v hv ht
    rcases List.mem_cons.mp ((perm_insertWaiter w s.waiters).mem_iff.mp hv) with rfl | hv
    · exact nofun
    · exact absurd ht (Nat.ne_of_lt (hold v hv))
  refine .intro ⟨Nat.le_refl _, rfl, sorted_insertWaiter hs.sorted w, hscript, hwaiters.symm, ?_, ?_, ?_, ?_⟩
    (fun name => ?_) ((Seen.refl _).left (if_pos rfl))
  · simp [State.waiting, State.emit, hlate]
  · simp [State.waiting, State.emit, hlate]
  · simp [State.waiting, State.emit, hqueue]
  · simp [State.waiting, State.emit, hqueue]
  · rw [Names.find?_bind, Names.find?_unbind]
    split
    · exact (Handle.without?_gone rfl).symm
    · rcases hf : s.handles.find? name with _ | x
      · rfl
      · exact (Handle.without?_of_lt (hn name x hf)).symm

end Erasure

/-! ### Cancelled in time -/

namespace State
variable {initial : Lsn} {s : State}

/-- A registration that was cancelled is neither started nor waiting. -/
theorem Orderly.removed_only (hs : s.Orderly initial) {t : Nat} (h : t ∈ removedIn s.history) :
    t ∉ startedIn s.history ∧ ∀ w ∈ s.waiters, w.ticket ≠ t := by
  have hplaces := hs.balanced.places_le_one t
  have hremoved := List.count_pos_iff.mpr (s.removedIn_trace ▸ h)
  have htrace : (s.ledger none).trace = s.trace := rfl
  rw [Ledger.places, htrace] at hplaces
  refine ⟨fun hm => ?_, fun w hw he => ?_⟩
  · have hstarted := List.count_pos_iff.mpr (s.startedIn_trace ▸ hm)
    omega
  · have hwaiting : 0 < ((s.ledger none).waiters.map (·.ticket)).count t :=
      List.count_pos_iff.mpr (List.mem_map.mpr ⟨w, hw, he⟩)
    omega

theorem calls_named (initial : Lsn) (metrics : Metrics) (cs : List Call) :
    let s := ((opened initial metrics).calls cs).1
    ∀ name x, s.handles.find? name = some x → x.ticket < s.tickets := by
  intro s
  obtain ⟨last, h⟩ := Machine.calls_moments (s := opened initial metrics) rfl cs .nothing
  exact (Machine.moments_kept h).2.named.handles

theorem settle_waiters (s : State) (cell : Nat) (o : Result.Outcome Lsn) :
    (s.settle cell o).1.waiters = s.waiters := by
  unfold settle
  dsimp only [emit]
  split <;> rfl

theorem cancel_waiters_eq_filter (s : State) (x : Handle) :
    (s.cancel x).1.waiters = s.waiters.filter fun w => !w.isFor x := by
  obtain ⟨hw, hc⟩ | ⟨w, -, -, ⟨-, hc⟩ | ⟨cell, -, hc⟩⟩ := s.cancel_cases x <;> rw [hc]
  · exact (List.filter_eq_self.mpr fun w hm => by rw [hw w hm, Bool.not_false]).symm
  · rfl
  · rw [settle_waiters]
    rfl

theorem cancel_waiters {v : Ledger} (hv : v.Balanced initial) (hw : v.waiters = s.waiters) (x : Handle) :
    (s.cancel x).1.waiters =
      if (s.cancel x).2.2 then s.waiters.filter (·.ticket ≠ x.ticket) else s.waiters := by
  rw [cancel_waiters_eq_filter, cancel_eq_any]
  cases hany : s.waiters.any (·.isFor x) with
  | false =>
    rw [List.any_eq_false] at hany
    exact List.filter_eq_self.mpr fun w hm => by rw [Bool.eq_false_iff.mpr (hany w hm), Bool.not_false]
  | true =>
    obtain ⟨u, hu, hf⟩ := List.any_eq_true.mp hany
    obtain ⟨htarget, hticket⟩ := Waiter.isFor_iff.mp hf
    rw [if_pos rfl]
    refine List.filter_congr fun w hm => ?_
    by_cases ht : w.ticket = x.ticket
    · have hwu : w.target = u.target := by
        have hfound := (hv.ahead w (hw ▸ hm)).1
        rw [ht, ← hticket, (hv.ahead u (hw ▸ hu)).1] at hfound
        exact (Option.some.inj hfound).symm
      have hfor : w.isFor x = true := Waiter.isFor_iff.mpr ⟨hwu.trans htarget, ht⟩
      simp [ht, hfor]
    · have hfor : w.isFor x = false := Bool.eq_false_iff.mpr fun h => ht (Waiter.isFor_iff.mp h).2
      simp [ht, hfor]

/-- Two runs from a list with this history: one with a registration that was cancelled, and one without it, in which
nothing goes by its handle. Tickets are counted without that of the registration. -/
structure Unregistered (gone : Nat) (past : List Entry) (kept : List (Call × Answer)) (full : State)
    (bare : State × List Answer) : Prop where
  /-- The same other callbacks start, in the same order and with the same positions. -/
  history : ∃ new new', full.history = past ++ new ∧ bare.1.history = past ++ new' ∧
    new'.filterMap (·.plain?) = new.filterMap (·.without? gone)
  /-- All other calls are answered alike, unless they tell how many wait. -/
  answers : List.Forall₂ (fun p a => p.1.isTally ∨ a = p.2.renumber gone) kept bare.2
  handles : ∀ name, bare.1.handles.find? name = (full.handles.find? name).bind (·.without? gone)
  results : bare.1.results = full.results
  cells : bare.1.cells = full.cells
  latest : bare.1.latest = full.latest
  waiters : bare.1.waiters = full.waiters.map (·.renumber gone)

/-- A registration that is cancelled in time might as well not have been made, and tickets keep their order without
its own. A cancellation at any moment removes the one waiter that it finds, and no other. -/
theorem calls_without_cancelled (initial : Lsn) (metrics : Metrics) (before after : List Call)
    (hb : .drop ∉ before) (ha : .drop ∉ after) (tag : String) (target : Lsn) (steps : List Action)
    (panics : Bool) :
    let s := ((opened initial metrics).calls before).1
    let gone := s.tickets
    let made := (s.call (.act (.register tag target steps panics))).1
    let full := (made.calls after).1
    let kept := made.transcriptWithout gone after
    let bare := (s.forget tag).calls (kept.map (·.1))
    (.cancelled ⟨target, gone⟩ true ∈ full.history → Unregistered gone s.history kept full bare) ∧
    (∀ t u, t ≠ gone → u ≠ gone → (renumber gone t < renumber gone u ↔ t < u)) ∧
    ∀ m, ReflTransGen Machine.Next (Machine.opened initial metrics) m → m.state.dropped = false →
      ∀ x, (m.state.cancel x).1.waiters =
        if (m.state.cancel x).2.2 then m.state.waiters.filter (·.ticket ≠ x.ticket)
        else m.state.waiters := by
  intro s gone made full kept bare
  refine ⟨fun hmem => ?_, fun t u => renumber_lt_iff,
    fun m hm hd x => cancel_waiters (Machine.moments_live hm hd).balanced rfl x⟩
  have hs : s.Orderly initial := (opened_orderly initial metrics).calls hb
  have hmade : made.Orderly initial := hs.call nofun
  have hfull : full.Orderly initial := hmade.calls ha
  have hremoved : gone ∈ removedIn full.history := List.mem_filterMap.mpr ⟨_, hmem, rfl⟩
  obtain ⟨hstarted, hwaiting⟩ := hfull.removed_only hremoved
  -- had the target been reached the callback would run, now or with the queue
  have hl : s.latest < target := by
    by_contra hl
    exact hstarted (started_later hmade.rest.queue after (hs.started_of_reached hl tag steps panics))
  have hmake : Erasure.Alike gone s.history made (s.forget tag) :=
    Erasure.alike_register hs (calls_named initial metrics before) hl tag steps panics
  obtain ⟨halike, hanswers⟩ := hmake.calls hmade hs.rest.queue ha hstarted
  obtain ⟨hresults, hcells⟩ := halike.results
  have hothers : bare.1.waiters = others gone full.waiters := halike.waiting.waiters
  have hseen := halike.seen
  refine ⟨?history, hanswers, halike.named, hresults, hcells, halike.latest, ?waiters⟩
  case history =>
    generalize bare.1.history = history at hseen
    obtain ⟨hp, hn⟩ := hseen
    exact ⟨_, _, hp, rfl, hn⟩
  case waiters => rw [hothers, others_of_absent hwaiting]

/-- The name of the registration stood for another one before and stands for yet another one after. A callback
for an earlier position cancels it and registers for its target; others for that target wait on both sides of
it. -/
theorem calls_without_cancelled_in_callback :
    let before : List Call :=
      [.act (.register "o" ⟨1, 5⟩ [] false), .act (.register "w" ⟨1, 5⟩ [] false)]
    let after : List Call := [
      .act (.register "c" ⟨1, 3⟩ [.cancel "w", .register "n" ⟨1, 5⟩ [.cancel "n"] true, .handle "c"] false),
      .act (.await "r" ⟨1, 5⟩), .advance ⟨1, 4⟩, .act (.cancel "w"), .act (.cancel "o"),
      .act (.register "w" ⟨2, 0⟩ [] false), .act (.cancel "w"), .advance ⟨1, 5⟩]
    let s := ((opened .zero {}).calls before).1
    let made := (s.call (.act (.register "w" ⟨1, 5⟩ [.latest] false))).1
    let full := (made.calls after).1
    let kept := made.transcriptWithout s.tickets after
    let bare := (s.forget "w").calls (kept.map (·.1))
    .drop ∉ before ∧ .drop ∉ after ∧ .cancelled ⟨⟨1, 5⟩, s.tickets⟩ true ∈ full.history ∧
      startedIn full.history = [3, 1, 4, 5] ∧ startedIn bare.1.history = [2, 1, 3, 4] ∧
      removedIn full.history = [2, 0, 6] ∧ removedIn bare.1.history = [0, 5] ∧
      List.Forall₂ (fun p a => p.1.isTally ∨ a = p.2.renumber s.tickets) kept bare.2 ∧
      bare.1.waiters = full.waiters.map (·.renumber s.tickets) := by
  intro before after s made full kept bare
  have hb : Call.drop ∉ before := by simp [before]
  have ha : Call.drop ∉ after := by simp [after]
  have hm : .cancelled ⟨⟨1, 5⟩, s.tickets⟩ true ∈ full.history := by decide +kernel
  have hunregistered := (calls_without_cancelled .zero {} before after hb ha "w" ⟨1, 5⟩ [.latest] false).1 hm
  refine ⟨hb, ha, hm, ?_, ?_, ?_, ?_, hunregistered.answers, hunregistered.waiters⟩
  all_goals decide +kernel

end State
end ReplicaRouting.WaitList
