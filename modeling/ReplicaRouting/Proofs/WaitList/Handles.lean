import ReplicaRouting.Proofs.WaitList.Exposure
/-!
What a handle stands for. It is a target and a ticket, and says nothing of the list that gave it: on that list no
other registration has the ticket, on another it stands for what was registered there under the same key.
-/

namespace ReplicaRouting.WaitList

open Relation (ReflTransGen)

/-! ### Registrations and their tickets -/

theorem registered_of_targetOf? {es : List Entry} {t : Nat} {target : Lsn} (h : targetOf? es t = some target) :
    .registered t target ∈ es := by
  obtain ⟨e, he, ht⟩ := List.exists_of_findSome?_eq_some h
  cases e with
  | registered u x =>
    obtain ⟨rfl, hx⟩ := Option.ite_none_right_eq_some.mp ht
    exact Option.some.inj hx ▸ he
  | _ => exact absurd ht nofun

theorem filter_registered {es : List Entry} (hn : (registeredIn es).Nodup) {t : Nat} {target : Lsn}
    (h : .registered t target ∈ es) : es.filter (·.registered? = some t) = [.registered t target] := by
  obtain ⟨before, after, rfl⟩ := List.append_of_mem h
  have hother {fs : List Entry} (ht : t ∉ registeredIn fs) : fs.filter (·.registered? = some t) = [] := by
    refine List.filter_eq_nil_iff.mpr fun e he hr => ht ?_
    exact List.mem_filterMap.mpr ⟨e, he, of_decide_eq_true hr⟩
  rw [registeredIn_append] at hn
  have ht : t ∉ registeredIn before ++ registeredIn after := (List.nodup_cons.mp (List.nodup_middle.mp hn)).1
  obtain ⟨hbefore, hafter⟩ := not_or.mp (mt List.mem_append.mpr ht)
  rw [List.filter_append, hother hbefore, List.nil_append, List.filter_cons, hother hafter]
  exact if_pos (decide_eq_true rfl)

namespace State
variable {s : State} {h : Handle}

theorem cancel_nothing (hc : (s.cancel h).2.2 = false) : s.cancel h = (s.emit (.cancelled h false), [], false) := by
  obtain ⟨-, h⟩ | ⟨w, -, -, ⟨-, h⟩ | ⟨cell, -, h⟩⟩ := s.cancel_cases h <;> rw [h] at hc ⊢
  · cases hc
  · cases hc

end State

namespace Machine

/-- A cancellation that comes to nothing. It is noted, all else is as it was, and what may come of the list comes of
it in the same way. -/
structure Untouched (m : Machine) (h : Handle) : Prop where
  noted : m.cancelling h = { m with state := m.state.emit (.cancelled h false) }
  onward : ∀ k, ReflTransGen Exposed m k → ∃ k', ReflTransGen Exposed (m.cancelling h) k' ∧
    SameSince m.state.history (m.state.history ++ [.cancelled h false]) k k'
  back : ∀ k', ReflTransGen Exposed (m.cancelling h) k' → ∃ k, ReflTransGen Exposed m k ∧
    SameSince m.state.history (m.state.history ++ [.cancelled h false]) k k'
  calls : ∀ cs, (m.run.state.calls cs).2 = ((m.cancelling h).run.state.calls cs).2 ∧
    State.SameSince m.state.history (m.state.history ++ [.cancelled h false]) (m.run.state.calls cs).1
      ((m.cancelling h).run.state.calls cs).1

/-- A pending result loses its waiter and is abandoned. With the waiter taken out its listeners hear of that, in their
order; when they are done the cancellation is counted and comes back. -/
structure Abandons (m : Machine) (h : Handle) (waiters : List Waiter) (cell : Nat) (listeners : List Listener) :
    Prop where
  pending : m.state.cells[cell]? = some ⟨none, listeners⟩
  settled : (m.cancelling h).state = { m.state with
    waiters
    cells := m.state.cells.set cell ⟨some (.failed (.router .abandoned)), []⟩
    history := m.state.history ++ [.cancelled h true, .settled cell (.failed (.router .abandoned))] }
  returns : ∃ (s : State) (new : List Entry),
    ReflTransGen Step (m.cancelling h) ⟨s.withdraw h, m.stack, m.answer⟩ ∧
      s.history = (m.cancelling h).state.history ++ new ∧
      (listeners.map fun l => .heard l.serial l.tag (.failed (.router .abandoned))).Sublist new

/-- A cancellation that takes out one waiter, and drops its callback: a script never runs. -/
structure Removes (m : Machine) (h : Handle) (before : List Waiter) (w : Waiter) (after : List Waiter) : Prop where
  split : m.state.waiters = before ++ w :: after
  target : w.target = h.target
  ticket : w.ticket = h.ticket
  kept : (m.cancelling h).state.waiters = before ++ after
  script : w.callback.cell? = none → m.cancelling h =
    { m with state := ({ m.state with waiters := before ++ after }.emit (.cancelled h true)).withdraw h }
  awaited : ∀ cell, w.callback = .settle cell → ∃ listeners, m.Abandons h (before ++ after) cell listeners

variable {initial initial' : Lsn} {metrics metrics' : Metrics} {m a later b : Machine} {h : Handle}

theorem untouched (hc : (m.state.cancel h).2.2 = false) : m.Untouched h := by
  have hn := State.cancel_nothing hc
  have hnoted : m.cancelling h = { m with state := m.state.emit (.cancelled h false) } := by
    rw [cancelling, hn]
    rfl
  have hsame : SameSince m.state.history (m.state.history ++ [.cancelled h false]) m (m.cancelling h) := by
    have hs : State.SameSince m.state.history (m.state.history ++ [.cancelled h false]) m.state
        (m.state.emit (.cancelled h false)) := by
      refine ⟨m.state.afresh, m.state.since_afresh.symm, ?_⟩
      rw [State.emit, State.since, State.afresh, List.append_nil]
    exact hnoted ▸ hs.machine m.stack m.answer
  refine ⟨hnoted, fun k hk => hsame.exposed hk, fun k' hk' => ?_, fun cs => (hsame.run.calls cs).symm⟩
  obtain ⟨k, hk, hs⟩ := hsame.symm.exposed hk'
  exact ⟨k, hk, hs.symm⟩

theorem abandons {before after : List Waiter} {cell : Nat} {listeners : List Listener}
    (hp : m.state.cells[cell]? = some ⟨none, listeners⟩)
    (hw : (m.state.waiters.filter fun w => !w.isFor h) = before ++ after)
    (hc : m.state.cancel h = (((m.state.remove h).settle cell (.failed (.router .abandoned))).1,
      ((m.state.remove h).settle cell (.failed (.router .abandoned))).2 ++ [.withdrawing h], true)) :
    m.Abandons h (before ++ after) cell listeners := by
  let s : State := { m.state with
    waiters := before ++ after
    cells := m.state.cells.set cell ⟨some (.failed (.router .abandoned)), []⟩
    history := m.state.history ++ [.cancelled h true, .settled cell (.failed (.router .abandoned))] }
  have hsettle : (m.state.remove h).settle cell (.failed (.router .abandoned)) =
      (s, [.delivering (.failed (.router .abandoned)) listeners 0 listeners.length]) := by
    simp only [State.settle, State.remove, State.emit, hp, hw, List.append_assoc]
    rfl
  have hm : m.cancelling h = ⟨s, .delivering (.failed (.router .abandoned)) listeners 0 listeners.length ::
      .withdrawing h :: m.stack, m.answer⟩ := by
    rw [cancelling, hc, hsettle]
    rfl
  refine ⟨hp, congrArg Machine.state hm, ?_⟩
  rw [hm]
  obtain ⟨t, new, ht, hnew, hsub⟩ := delivers (.failed (.router .abandoned)) listeners 0 listeners.length s
    (.withdrawing h :: m.stack) m.answer
  exact ⟨t, new, ht.tail rfl, hnew, hsub⟩

theorem Live.cancel_iff (hb : b.Live initial) (h : Handle) :
    (b.state.cancel h).2.2 = true ↔ IsPending initial b.state.trace h := by
  rw [State.cancel_eq_any]
  exact hb.balanced.any_isFor_iff h

theorem exposed_removes (hm : ReflTransGen Exposed (opened initial metrics) m) (hd : m.state.dropped = false)
    (hc : (m.state.cancel h).2.2 = true) : ∃ before w after, m.Removes h before w after := by
  have hn := (exposed_live hm hd).balanced.nodup_waiters
  obtain ⟨-, hnone⟩ | ⟨w, hw, hf, hcases⟩ := m.state.cancel_cases h
  · rw [hnone] at hc
    cases hc
  obtain ⟨before, after, hsplit, hkept⟩ := State.filter_isFor hn hw hf
  obtain ⟨htarget, hticket⟩ := Waiter.isFor_iff.mp hf
  have hremove : m.state.remove h = { m.state with waiters := before ++ after }.emit (.cancelled h true) := by
    rw [State.remove, hkept]
  refine ⟨before, w, after, ?_⟩
  obtain ⟨⟨tag, steps, panics, hs⟩, hcancel⟩ | ⟨cell, hcell, hcancel⟩ := hcases
  · have hwhole : m.cancelling h =
        { m with state := ({ m.state with waiters := before ++ after }.emit (.cancelled h true)).withdraw h } := by
      rw [cancelling, hcancel, hremove]
      rfl
    refine ⟨hsplit, htarget, hticket, by rw [hwhole]; rfl, fun _ => hwhole, fun cell hcell => ?_⟩
    cases hs.symm.trans hcell
  · have howed : cell ∈ m.book.owed :=
      List.mem_filterMap.mpr ⟨w, List.mem_append_right _ (List.mem_append_left _ hw), by rw [hcell]; rfl⟩
    obtain ⟨listeners, hp⟩ := (exposed_kept hm).2.settled.pending cell howed
    have ha := abandons hp hkept hcancel
    refine ⟨hsplit, htarget, hticket, by rw [ha.settled], fun hnone => ?_, fun other hother => ?_⟩
    · rw [hcell] at hnone
      cases hnone
    · cases hcell.symm.trans hother
      exact ⟨listeners, ha⟩

/-- A handle that list `a` gave, at any later moment of `a` and at any moment of a list `b`, whatever handles were used
on them. No other registration of `a` has its ticket, so that on `a` it cancels its own or none. On `b` it cancels
exactly what `b` itself has pending under the same target and ticket, and takes that one waiter out; where there is
none the answer is no, and `b` is untouched. -/
theorem handle_stands_for (ha : ReflTransGen Exposed (opened initial metrics) a)
    (hh : .registered h.ticket h.target ∈ a.state.history) (hl : ReflTransGen Exposed a later)
    (hal : later.state.dropped = false) (hb : ReflTransGen Exposed (opened initial' metrics') b)
    (hbl : b.state.dropped = false) :
    later.state.history.filter (·.registered? = some h.ticket) = [.registered h.ticket h.target] ∧
    ((later.state.cancel h).2.2 = true ↔ IsPending initial later.state.trace h) ∧
    ((b.state.cancel h).2.2 = true ↔ IsPending initial' b.state.trace h) ∧
    ((b.state.cancel h).2.2 = true → .registered h.ticket h.target ∈ b.state.history ∧
      ∃ before w after, b.Removes h before w after) ∧
    ((b.state.cancel h).2.2 = false → b.Untouched h) := by
  have hlive : later.Live initial := exposed_live (ha.trans hl) hal
  have hlive' : b.Live initial' := exposed_live hb hbl
  refine ⟨?own, hlive.cancel_iff h, hlive'.cancel_iff h, fun hc => ⟨?given, exposed_removes hb hbl hc⟩, untouched⟩
  case own =>
    obtain ⟨new, hnew⟩ := exposed_history hl
    refine filter_registered ?_ (hnew ▸ List.mem_append_left new hh)
    rw [← State.registeredIn_trace]
    exact hlive.balanced.tickets ▸ List.nodup_range
  case given =>
    obtain ⟨htarget, -⟩ := (hlive'.cancel_iff h).mp hc
    exact (List.mem_filter.mp (registered_of_targetOf? htarget)).1

/-- The second handle of a list, on that list after an advance and on two others. One has given an equal handle to an
awaited result, with a listener that panics; in the other the second registration has an earlier target. -/
theorem handle_stands_for_own :
    let a := ((State.opened .zero {}).calls
      [.act (.register "a" ⟨1, 5⟩ [] false), .act (.register "c" ⟨1, 7⟩ [] false)]).1
    let later := (a.calls [.advance ⟨1, 5⟩, .act (.register "d" ⟨1, 7⟩ [] false)]).1
    let b := ((State.opened .zero {}).calls [.act (.register "e" ⟨1, 7⟩ [] false), .act (.await "r" ⟨1, 7⟩),
      .act (.listen "r" "l" [.register "g" ⟨1, 8⟩ [] false] true)]).1
    let b' := ((State.opened ⟨1, 2⟩ {}).calls
      [.act (.register "e" ⟨1, 7⟩ [] false), .act (.register "f" ⟨1, 6⟩ [] false)]).1
    let h : Handle := ⟨⟨1, 7⟩, 1⟩
    a.handles.find? "c" = some h ∧ .registered h.ticket h.target ∈ a.history ∧
      later.dropped = false ∧ b.dropped = false ∧ b'.dropped = false ∧
      later.history.filter (·.registered? = some h.ticket) = [.registered h.ticket h.target] ∧
      (later.cancel h).2.2 = true ∧ IsPending .zero later.trace h ∧
      (∃ answer before w after, Removes ⟨later, [], answer⟩ h before w after) ∧
      (b.cancel h).2.2 = true ∧ IsPending .zero b.trace h ∧
      (∃ answer before w after, Removes ⟨b, [], answer⟩ h before w after) ∧
      (b'.cancel h).2.2 = false ∧ ¬ IsPending ⟨1, 2⟩ b'.trace h ∧ ∃ answer, Untouched ⟨b', [], answer⟩ h := by
  intro a later b b' h
  have hh : .registered h.ticket h.target ∈ a.history := by decide +kernel
  have hal : later.dropped = false := by decide +kernel
  have hbl : b.dropped = false := by decide +kernel
  have hbl' : b'.dropped = false := by decide +kernel
  have hown : (later.cancel h).2.2 = true := by decide +kernel
  have hequal : (b.cancel h).2.2 = true := by decide +kernel
  have hnone : (b'.cancel h).2.2 = false := by decide +kernel
  obtain ⟨_, ha⟩ := calls_moments (s := State.opened .zero {}) rfl
    [.act (.register "a" ⟨1, 5⟩ [] false), .act (.register "c" ⟨1, 7⟩ [] false)] .nothing
  obtain ⟨last, hl⟩ := calls_moments (s := a) (State.queue_call ..)
    [.advance ⟨1, 5⟩, .act (.register "d" ⟨1, 7⟩ [] false)] _
  obtain ⟨answer, hb⟩ := calls_moments (s := State.opened .zero {}) rfl [.act (.register "e" ⟨1, 7⟩ [] false),
    .act (.await "r" ⟨1, 7⟩), .act (.listen "r" "l" [.register "g" ⟨1, 8⟩ [] false] true)] .nothing
  obtain ⟨answer', hb'⟩ := calls_moments (s := State.opened ⟨1, 2⟩ {}) rfl
    [.act (.register "e" ⟨1, 7⟩ [] false), .act (.register "f" ⟨1, 6⟩ [] false)] .nothing
  replace ha := exposed_of_moments ha
  replace hl := exposed_of_moments hl
  obtain ⟨honly, hpending, -, hremoves, -⟩ := handle_stands_for (h := h) ha hh hl hal (ha.trans hl) hal
  obtain ⟨-, -, hpending', hremoves', -⟩ := handle_stands_for (h := h) ha hh hl hal (exposed_of_moments hb) hbl
  obtain ⟨-, -, hother, -, huntouched⟩ := handle_stands_for (h := h) ha hh hl hal (exposed_of_moments hb') hbl'
  refine ⟨by decide +kernel, hh, hal, hbl, hbl', honly, hown, hpending.mp hown, ⟨last, (hremoves hown).2⟩, hequal,
    hpending'.mp hequal, ⟨answer, (hremoves' hequal).2⟩, hnone, fun hp => ?_, answer', huntouched hnone⟩
  exact absurd ((hother.mpr hp).symm.trans hnone) (by decide)

/-- Handles do not tell lists apart. Lists that were opened alike give their first registrations for a position
the same handle: with the handle of one the waiter of the other is removed, and never starts. -/
theorem cancel_by_foreign_handle :
    let a := ((State.opened .zero {}).calls [.act (.register "a" ⟨1, 5⟩ [] false)]).1
    let b := ((State.opened .zero {}).calls [.act (.register "b" ⟨1, 5⟩ [] false)]).1
    a.handles.find? "a" = some ⟨⟨1, 5⟩, 0⟩ ∧ (b.cancel ⟨⟨1, 5⟩, 0⟩).2.2 = true ∧
      b.waiters.length = 1 ∧ (b.cancel ⟨⟨1, 5⟩, 0⟩).1.waiters.length = 0 ∧
      startedIn (b.calls [.advance ⟨1, 5⟩]).1.history = [0] ∧
      startedIn ((b.cancel ⟨⟨1, 5⟩, 0⟩).1.calls [.advance ⟨1, 5⟩]).1.history = [] := by
  decide +kernel

end Machine
end ReplicaRouting.WaitList
