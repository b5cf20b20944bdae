import Mathlib.Algebra.GroupWithZero.Nat
import ReplicaRouting.Proofs.WaitList.Moments
/-!
The accounts of a wait list. A callback is counted as fired when it is left to the notifier or at the end of
the advance that runs it, a cancellation at once; the counters and the lines agree with what happened.
-/

namespace ReplicaRouting.WaitList

open Relation (ReflTransGen)

/-- Read off a history: the latest position, whether an advance is under way, and how many registrations
were satisfied already while none was. -/
structure Tally where
  latest : Lsn
  running : Bool
  deferred : Nat

def Tally.next (v : Tally) : Entry → Tally
  | .recorded lsn => { v with latest := lsn, running := true }
  | .registered _ target =>
    if v.running = false ∧ target ≤ v.latest then { v with deferred := v.deferred + 1 } else v
  | .logged r => if r.event = Log.Event.lsnAdvanced.name then { v with running := false } else v
  | _ => v

def tallyOf (initial : Lsn) (es : List Entry) : Tally := es.foldl Tally.next ⟨initial, false, 0⟩

/-- The registrations that were satisfied already while no advance was running. -/
def deferredIn (initial : Lsn) (es : List Entry) : Nat := (tallyOf initial es).deferred

/-- The callbacks that the accepted advances say they have fired. -/
def firedBy (ps : List (Lsn × Nat)) : Nat := (ps.map (·.2)).sum

def advanceLine (p : Lsn × Nat) : Log.Record :=
  .of .lsnAdvanced [("fired", Text.numeral p.2), ("latest", p.1.text)]

def Entry.isAside : Entry → Bool
  | .settled .. | .listening .. | .heard .. | .answered .. => true
  | .cancelled _ removed => !removed
  | .logged r => r.event ≠ Log.Event.lsnAdvanced.name ∧ r.event ≠ Log.Event.waiterCancelled.name
  | _ => false

section Concat
variable (initial : Lsn) (es : List Entry) (e : Entry)

@[simp] theorem tallyOf_concat : tallyOf initial (es ++ [e]) = (tallyOf initial es).next e :=
  List.foldl_append

variable {e}

theorem next_aside (v : Tally) (h : e.isAside = true) : v.next e = v := by
  cases e with
  | registered | recorded | started => cases h
  | settled | listening | heard | answered | cancelled => rfl
  | logged r => exact if_neg (of_decide_eq_true h).1

theorem linesOf_aside (h : e.isAside = true) :
    linesOf .lsnAdvanced [e] = [] ∧ linesOf .waiterCancelled [e] = [] := by
  cases e with
  | registered | recorded | started | settled | listening | heard | answered | cancelled =>
    exact ⟨rfl, rfl⟩
  | logged r =>
    obtain ⟨ha, hc⟩ := of_decide_eq_true h
    rw [linesOf_logged, linesOf_logged, if_neg ha, if_neg hc]
    exact ⟨rfl, rfl⟩

theorem removedIn_aside (h : e.isAside = true) : removedIn [e] = [] ∧ startedIn [e] = [] := by
  cases e with
  | registered | recorded | started => cases h
  | settled | listening | heard | answered | logged => exact ⟨rfl, rfl⟩
  | cancelled x removed =>
    cases removed with
    | true => cases h
    | false => exact ⟨rfl, rfl⟩

end Concat

/-- The accounts after advances with these positions and counts; an advance under way has a batch, with its
waiters still to start and how many it has taken. -/
structure State.Accounted (initial : Lsn) (ps : List (Lsn × Nat)) (k : Option (List Waiter × Nat))
    (s : State) : Prop where
  tally : tallyOf initial s.history = ⟨s.latest, s.advancing, deferredIn initial s.history⟩
  started : (startedIn s.history).length + s.queue.length + k.elim 0 (·.1.length) =
    firedBy ps + k.elim 0 (·.2) + deferredIn initial s.history
  fired : s.metrics.waitersFired = (firedBy ps + deferredIn initial s.history).toUInt64
  cancelled : s.metrics.waitersCancelled = (removedIn s.history).length.toUInt64
  cancellations : (linesOf .waiterCancelled s.history).length = (removedIn s.history).length
  advances : linesOf .lsnAdvanced s.history = ps.map advanceLine

namespace State
variable {initial : Lsn} {ps : List (Lsn × Nat)} {k : Option (List Waiter × Nat)} {s s' : State}

theorem Accounted.of_eq (h : s.Accounted initial ps k) (hl : s'.latest = s.latest)
    (ha : s'.advancing = s.advancing) (hq : s'.queue = s.queue)
    (hf : s'.metrics.waitersFired = s.metrics.waitersFired)
    (hc : s'.metrics.waitersCancelled = s.metrics.waitersCancelled)
    (hh : s'.history = s.history) : s'.Accounted initial ps k := by
  obtain ⟨ht, hs, hfired, hcancelled, hlines, hadv⟩ := h
  refine ⟨?_, ?_, ?_, ?_, ?_, ?_⟩
  · rw [hh, hl, ha, ht]
  · rw [hh, hq, hs]
  · rw [hh, hf, hfired]
  · rw [hh, hc, hcancelled]
  · rw [hh, hlines]
  · rw [hh, hadv]

/-- An entry that is neither a cancellation nor the line of one, nor the end of an advance. It may be the
registration of so many deferred callbacks or the start of one. -/
theorem Accounted.noted {k' : Option (List Waiter × Nat)} {e : Entry} (h : s.Accounted initial ps k)
    (hh : s'.history = s.history ++ [e]) (hr : removedIn [e] = [])
    (hl : linesOf .lsnAdvanced [e] = [] ∧ linesOf .waiterCancelled [e] = []) (d : Nat)
    (hn : Tally.next ⟨s.latest, s.advancing, deferredIn initial s.history⟩ e =
      ⟨s'.latest, s'.advancing, deferredIn initial s.history + d⟩)
    (hs : (startedIn [e]).length + s'.queue.length + k'.elim 0 (·.1.length) + k.elim 0 (·.2) =
      s.queue.length + k.elim 0 (·.1.length) + k'.elim 0 (·.2) + d)
    (hf : s'.metrics.waitersFired = s.metrics.waitersFired + d.toUInt64)
    (hc : s'.metrics.waitersCancelled = s.metrics.waitersCancelled) : s'.Accounted initial ps k' := by
  have ht : tallyOf initial s'.history =
      ⟨s'.latest, s'.advancing, deferredIn initial s.history + d⟩ := by
    rw [hh, tallyOf_concat, h.tally, hn]
  have hd : deferredIn initial s'.history = deferredIn initial s.history + d :=
    congrArg Tally.deferred ht
  refine ⟨?_, ?_, ?_, ?_, ?_, ?_⟩
  · rw [ht, hd]
  · have hstarted := h.started
    rw [hd, hh, startedIn_append, List.length_append]
    omega
  · rw [hf, hd, h.fired, ← Nat.add_assoc]
    exact (UInt64.ofNat_add ..).symm
  · rw [hc, h.cancelled, hh, removedIn_append, hr, List.append_nil]
  · rw [hh, linesOf_append, hl.2, List.append_nil, removedIn_append, hr, List.append_nil]
    exact h.cancellations
  · rw [hh, linesOf_append, hl.1, List.append_nil]
    exact h.advances

theorem Accounted.emit (h : s.Accounted initial ps k) {e : Entry} (he : e.isAside = true) :
    (s.emit e).Accounted initial ps k := by
  obtain ⟨hrem, hst⟩ := removedIn_aside he
  apply h.noted rfl hrem (linesOf_aside he) 0
  · exact next_aside _ he
  · simp only [hst, State.emit, List.length_nil]
    omega
  · exact (UInt64.add_zero _).symm
  · rfl

theorem Accounted.log (h : s.Accounted initial ps k) {r : Log.Record}
    (hr : r.event ≠ Log.Event.lsnAdvanced.name ∧ r.event ≠ Log.Event.waiterCancelled.name) :
    (s.log r).Accounted initial ps k :=
  h.emit (decide_eq_true hr)

theorem Accounted.settle (h : s.Accounted initial ps k) (cell : Nat) (o : Result.Outcome Lsn) :
    (s.settle cell o).1.Accounted initial ps k := by
  have hs : (s.emit (.settled cell o)).Accounted initial ps k := h.emit rfl
  unfold State.settle
  dsimp only
  split
  · exact hs.of_eq rfl rfl rfl rfl rfl rfl
  · exact hs

theorem Accounted.hear (h : s.Accounted initial ps k) (l : Listener) (o : Result.Outcome Lsn) :
    (s.hear l o).1.Accounted initial ps k :=
  h.emit rfl

theorem Accounted.listen (h : s.Accounted initial ps k) (cell : Nat) (tag : String)
    (steps : List Action) (panics : Bool) :
    (s.listen cell tag steps panics).1.Accounted initial ps k := by
  have hm : ({ s with listeners := s.listeners + 1 } : State).Accounted initial ps k :=
    h.of_eq rfl rfl rfl rfl rfl rfl
  have hl := hm.emit (e := .listening s.listeners cell) rfl
  unfold State.listen
  dsimp only
  split
  · exact hl
  · exact hl.of_eq rfl rfl rfl rfl rfl rfl
  · exact hl.hear ..

theorem Accounted.start {begun : State} {k' : Option (List Waiter × Nat)}
    (h : s.Accounted initial ps k) (hl : begun.latest = s.latest)
    (ha : begun.advancing = s.advancing) (hm : begun.metrics = s.metrics)
    (hh : begun.history = s.history)
    (hk : 1 + begun.queue.length + k'.elim 0 (·.1.length) + k.elim 0 (·.2) =
      s.queue.length + k.elim 0 (·.1.length) + k'.elim 0 (·.2))
    (w : Waiter) (lsn : Lsn) (place : Place) :
    (begun.start w lsn place).1.Accounted initial ps k' := by
  have hs : ∀ tag, (begun.emit (.started w.ticket tag lsn place)).Accounted initial ps k' := by
    intro tag
    apply h.noted (congrArg (· ++ _) hh) rfl ⟨rfl, rfl⟩ 0
    · simp only [Tally.next, State.emit, hl, ha, Nat.add_zero]
    · exact hk
    · exact (congrArg _ hm).trans (UInt64.add_zero _).symm
    · exact congrArg _ hm
  unfold State.start
  split
  · exact hs _
  · exact (hs none).settle ..

theorem Accounted.register (h : s.Accounted initial ps k) (target : Lsn) (callback : Callback) :
    (s.register target callback).1.Accounted initial ps k := by
  have hr : removedIn [.registered s.tickets target] = [] := rfl
  have hst : startedIn [.registered s.tickets target] = [] := rfl
  by_cases hl : s.latest < target
  · have hn : ¬ target ≤ s.latest := Lsn.not_le.mpr hl
    simp only [State.register, State.accept, State.emit, hl, if_true]
    apply h.noted rfl rfl ⟨rfl, rfl⟩ 0
    · simp [Tally.next, hn]
    · simp [hst]
    · exact (UInt64.add_zero _).symm
    · rfl
  · have hn : target ≤ s.latest := hl
    by_cases ha : s.advancing = true
    · simp only [State.register, State.accept, State.emit, hl, ha, if_true, if_false]
      apply h.noted rfl rfl ⟨rfl, rfl⟩ 0
      · simp [Tally.next, ha]
      · simp [hst]
      · exact (UInt64.add_zero _).symm
      · rfl
    · simp only [State.register, State.accept, State.emit, hl, ha, if_false, Bool.false_eq_true]
      apply h.noted rfl rfl ⟨rfl, rfl⟩ 1
      · simp [Tally.next, hn, ha]
      · simp only [hst, List.length_append, List.length_nil, List.length_singleton]
        omega
      · rfl
      · rfl

theorem Accounted.withdraw_remove (h : s.Accounted initial ps k) (x : Handle) :
    ((s.remove x).withdraw x).Accounted initial ps k := by
  let r : Log.Record := .of .waiterCancelled [("target", x.target.text)]
  have hh : ∀ es : List Entry, es ++ [.cancelled x true] ++ [.logged r] =
      es ++ [.cancelled x true, .logged r] := fun es => List.append_assoc ..
  have ht : tallyOf initial (s.history ++ [.cancelled x true, .logged r]) =
      tallyOf initial s.history := by
    rw [← hh, tallyOf_concat, tallyOf_concat]
    rfl
  have hd : deferredIn initial (s.history ++ [.cancelled x true, .logged r]) =
      deferredIn initial s.history := congrArg Tally.deferred ht
  have hr : removedIn [.cancelled x true, .logged r] = [x.ticket] := rfl
  have hst : startedIn [.cancelled x true, .logged r] = [] := rfl
  have hl : linesOf .waiterCancelled [.cancelled x true, .logged r] = [r] := by
    simp [linesOf, Entry.logged?, r, Log.Record.of]
  have hl' : linesOf .lsnAdvanced [.cancelled x true, .logged r] = [] := by
    simp [linesOf, Entry.logged?, r, Log.Record.of, Log.Event.name]
  refine ⟨?_, ?_, ?_, ?_, ?_, ?_⟩ <;> dsimp only [State.remove, State.withdraw, State.log, State.emit] <;> rw [hh]
  · rw [ht, hd, h.tally]
  · rw [startedIn_append, hst, List.append_nil, hd, h.started]
  · rw [hd, ← h.fired]
    rfl
  · rw [removedIn_append, hr, List.length_append]
    exact (congrArg (· + 1) h.cancelled).trans (UInt64.ofNat_add ..).symm
  · rw [linesOf_append, removedIn_append, hl, hr, List.length_append, List.length_append,
      h.cancellations]
    rfl
  · rw [linesOf_append, hl', List.append_nil, h.advances]

theorem Accounted.cancel (h : s.Accounted initial ps k) (hs : s.Scripted) {tag : String} {x : Handle}
    (hx : s.handles.find? tag = some x) : (s.cancel x).1.Accounted initial ps k := by
  obtain hc | hc := hs.cancel_cases hx <;> rw [hc]
  · exact h.emit rfl
  · exact h.withdraw_remove x

theorem Accounted.perform (h : s.Accounted initial ps k) (hs : s.Scripted) (a : Action) :
    (s.perform a).1.Accounted initial ps k := by
  cases a with
  | register tag target steps panics =>
    simp only [State.perform]
    split
    · exact h
    · exact (h.register target _).of_eq rfl rfl rfl rfl rfl rfl
  | await name target =>
    simp only [State.perform]
    split
    · exact h
    · apply Accounted.register
      exact h.of_eq rfl rfl rfl rfl rfl rfl
  | cancel tag =>
    simp only [State.perform]
    split
    · exact h
    · split
      · exact h
      · rename_i hx
        exact h.cancel hs hx
  | listen name tag steps panics =>
    simp only [State.perform]
    split
    · exact h
    · exact h.listen ..
  | poll | handle | latest | pending | metrics | describe | misread =>
    simp only [State.perform]
    repeat' split
    all_goals exact h

theorem Accounted.rest {taken : Nat} (h : s.Accounted initial ps (some ([], taken))) (lsn : Lsn) :
    (s.rest lsn taken).Accounted initial (ps ++ [(lsn, taken)]) none := by
  let e : Entry := .logged (advanceLine (lsn, taken))
  have hh : (s.rest lsn taken).history = s.history ++ [e] := rfl
  have ht : tallyOf initial (s.history ++ [e]) =
      ⟨s.latest, false, deferredIn initial s.history⟩ := by
    rw [tallyOf_concat, h.tally]
    simp [e, Tally.next, advanceLine, Log.Record.of]
  have hd : deferredIn initial (s.history ++ [e]) = deferredIn initial s.history := by
    rw [deferredIn, ht]
  have hr : removedIn [e] = [] := rfl
  have hp : firedBy (ps ++ [(lsn, taken)]) = firedBy ps + taken := by simp [firedBy]
  have hl : linesOf .lsnAdvanced [e] = [advanceLine (lsn, taken)] := by
    simp [e, linesOf_logged, advanceLine, Log.Record.of]
  have hl' : linesOf .waiterCancelled [e] = [] := by
    simp [e, linesOf_logged, advanceLine, Log.Record.of, Log.Event.name]
  refine ⟨?_, ?_, ?_, ?_, ?_, ?_⟩
  · rw [hh, hd, ht]
    rfl
  · have hs := h.started
    rw [hh, hd, hp]
    simp only [startedIn_append, startedIn_singleton, e, Entry.started?, Option.toList_none,
      List.append_nil, State.rest, State.log, State.emit, Option.elim_none, Option.elim_some,
      List.length_nil] at hs ⊢
    omega
  · have hf : (s.rest lsn taken).metrics.waitersFired = s.metrics.waitersFired + taken.toUInt64 := rfl
    rw [hf, hh, hd, hp, h.fired, Nat.add_right_comm]
    exact (UInt64.ofNat_add ..).symm
  · rw [hh, removedIn_append, hr, List.append_nil]
    exact h.cancelled
  · rw [hh, linesOf_append, hl', removedIn_append, hr, List.append_nil, List.append_nil]
    exact h.cancellations
  · rw [hh, linesOf_append, hl, h.advances, List.map_append]
    rfl

theorem Accounted.advance (h : s.Accounted initial ps none) (lsn : Lsn) :
    ({ s with
      latest := lsn
      advancing := true
      waiters := s.waiters.filter fun w => !decide (w.target ≤ lsn) }.emit (.recorded lsn)).Accounted
      initial ps (some (s.waiters.filter fun w : Waiter => w.target ≤ lsn,
        (s.waiters.filter fun w : Waiter => w.target ≤ lsn).length)) := by
  apply h.noted rfl rfl ⟨rfl, rfl⟩ 0 rfl
  · have hst : startedIn [.recorded lsn] = [] := rfl
    simp only [hst, State.emit, Option.elim_none, Option.elim_some, List.length_nil]
    omega
  · exact (UInt64.add_zero _).symm
  · rfl

end State

/-! ### Runs -/

namespace Machine
variable {initial : Lsn} {metrics : Metrics} {ps : List (Lsn × Nat)} {m m' : Machine}

def Accounted (initial : Lsn) (ps : List (Lsn × Nat)) (m : Machine) : Prop :=
  m.state.Accounted initial ps (batchOf m.stack)

theorem Accounted.push {s : State} {fs below : List Frame} {answer : Answer}
    (h : s.Accounted initial ps (batchOf below)) (hf : ∀ f ∈ fs, f.isInner) :
    Accounted initial ps ⟨s, fs ++ below, answer⟩ := by
  rw [Accounted, batchOf_append hf]
  exact h

theorem Accounted.unwind (h : m.Accounted initial ps) (hs : Stacked m.state.latest m.stack) :
    m.unwind.Accounted initial ps := by
  have hc := hs.caught
  unfold Accounted at h ⊢
  unfold Machine.unwind
  split
  · rename_i hn
    rw [hn] at hc
    rw [hc] at h
    exact h
  · rename_i r below hn
    rw [hn] at hc
    rw [hc.2]
    apply h.log
    rcases caught_event hn with hr | hr <;> rw [hr] <;> decide

theorem step_accounted (hr : ReflTransGen Next (opened initial metrics) m) (hm : m.Sound)
    (h : m.step = some m') (ha : m.Accounted initial ps) : m'.Accounted initial ps ∨ m.Finishes m' := by
  have hscripted := moments_scripted hr
  have hunwithdrawn := moments_unwithdrawn hr
  obtain ⟨s, stack, answer⟩ := m
  have hs : Stacked s.latest stack := hm.stacked
  cases hs with
  | empty =>
    cases step_goes h with
    | notify hn =>
      obtain ⟨w, lsn, queue, hq, rfl⟩ := State.notify_eq_some hn
      have ha : s.Accounted initial ps none := ha
      have hi := { s with queue := queue }.start_isInner w lsn .notifier
      have hb : ({ s with queue := queue }.start w lsn .notifier).1.Accounted initial ps none := by
        refine ha.start (by rfl) (by rfl) (by rfl) (by rfl) ?_ w lsn .notifier
        simp only [hq, List.length_cons]
        omega
      exact .inl (.push hb hi)
  | notifying lsn =>
    obtain rfl := Option.some.inj h
    exact .inl ha
  | batch round rest taken =>
    cases rest with
    | cons w rest =>
      obtain rfl := Option.some.inj h
      have ha : s.Accounted initial ps (some (w :: rest, taken)) := ha
      refine .inl (.push ?_ (s.start_isInner w s.latest (.batch round)))
      apply ha.start rfl rfl rfl rfl
      simp only [batchOf, Option.elim_some, List.length_cons]
      omega
    | nil =>
      -- only here the count of the batch enters the counter, so this end is told apart
      cases step_goes h with
      | rest hl => exact .inr ⟨round, taken, rfl, hl, rfl⟩
      | @round _ _ _ _ w late _ _ hl =>
        have ha : s.Accounted initial ps (some ([], taken)) := ha
        have hi := { s with late := [] }.start_isInner w s.latest (.batch (round + 1))
        have hb : ({ s with late := [] }.start w s.latest (.batch (round + 1))).1.Accounted initial ps
            (some (late, taken + late.length + 1)) := by
          refine ha.start (by rfl) (by rfl) (by rfl) (by rfl) ?_ w s.latest (.batch (round + 1))
          simp only [Option.elim_some, List.length_nil]
          omega
        exact .inl (.push hb hi)
  | @inner f below hf hs =>
    cases f with
    | body tag steps panics =>
      cases steps with
      | cons a steps =>
        obtain rfl := Option.some.inj h
        exact .inl (.push (State.Accounted.perform ha hscripted a) (s.perform_isInner a))
      | nil =>
        obtain rfl := Option.some.inj h
        cases panics with
        | false => exact .inl ha
        | true => exact .inl (Accounted.unwind (m := ⟨s, below, answer⟩) ha hs)
    | answering tag a =>
      obtain rfl := Option.some.inj h
      exact .inl (State.Accounted.emit ha rfl)
    | delivering o rest position total =>
      cases rest with
      | nil =>
        obtain rfl := Option.some.inj h
        exact .inl ha
      | cons l rest =>
        obtain rfl := Option.some.inj h
        exact .inl (State.Accounted.hear ha l o)
    | withdrawing x => cases hunwithdrawn _ (List.mem_cons_self ..)
    | batch | notifying | discarding => cases hf

theorem run_accounted (m : Machine) (hr : ReflTransGen Next (opened initial metrics) m) (hm : m.Sound)
    (hb : batchOf m.stack = none) (ha : m.Accounted initial ps) : m.run.state.Accounted initial ps none := by
  induction m using Machine.run.induct with
  | case1 m h =>
    rw [run, h]
    rwa [Accounted, hb] at ha
  | case2 m m' h ih =>
    rw [run, h]
    have hf : ¬ m.Finishes m' := by
      rintro ⟨round, taken, hs, -⟩
      rw [hs] at hb
      cases hb
    obtain ⟨hs, hmoves⟩ := (step_moves hm h).resolve_right hf
    have hb' : (batchOf m'.stack).isSome = (batchOf m.stack).isSome := (Ledger.moves_frame hmoves).batch
    rw [hb] at hb'
    exact ih (hr.tail (.step h)) (hm.of_moves hmoves hs) (Option.not_isSome_iff_eq_none.mp (by simp [hb']))
      ((step_accounted hr hm h ha).resolve_right hf)

/-- An advance is answered with what it adds to the accounts. -/
theorem run_accounted_advance (m : Machine) (hr : ReflTransGen Next (opened initial metrics) m) (hm : m.Sound)
    (hp : m.ledger.Phased) (hb : (batchOf m.stack).isSome) (ha : m.Accounted initial ps) :
    ∃ taken, m.run.answer = .count taken ∧
      m.run.state.Accounted initial (ps ++ [(m.state.latest, taken)]) none := by
  induction m using Machine.run.induct with
  | case1 m h =>
    rw [(idle_of_step h).1] at hb
    cases hb
  | case2 m m' h ih =>
    have hrun : m.run = m'.run := by rw [run, h]
    rw [hrun]
    by_cases hf : m.Finishes m'
    · obtain ⟨round, taken, hs, hl, rfl⟩ := hf
      have hq : m.state.queue = [] := hp.queue (hp.flag.trans hb)
      rw [run_at_rest (show (m.state.rest m.state.latest taken).queue = [] from hq)]
      rw [Accounted, hs] at ha
      exact ⟨taken, rfl, State.Accounted.rest ha m.state.latest⟩
    · obtain ⟨hs, hmoves⟩ := (step_moves hm h).resolve_right hf
      have hframe := Ledger.moves_frame hmoves
      have hlatest : m'.state.latest = m.state.latest := hframe.latest
      rw [← hlatest]
      exact ih (hr.tail (.step h)) (hm.of_moves hmoves hs) (hp.moves hmoves) (hframe.batch.trans hb)
        ((step_accounted hr hm h ha).resolve_right hf)

end Machine

namespace State
variable {initial : Lsn} {metrics : Metrics} {ps : List (Lsn × Nat)} {s : State} {answer : Answer}

theorem Accounted.call (h : s.Accounted initial ps none) (hr : s.Ready)
    (hmoment : ReflTransGen Machine.Next (.opened initial metrics) ⟨s, [], answer⟩) (hd : s.dropped = false)
    {c : Call} (hc : c ≠ .drop) :
    (s.call c).1.Accounted initial (ps ++ [(c, (s.call c).2)].filterMap Call.accepted?) none := by
  have hbegun : ReflTransGen Machine.Next (.opened initial metrics) (s.begun c) :=
    hmoment.tail (.call c rfl fun _ _ => hr.queue)
  obtain ⟨hm, -⟩ := begun_turns ⟨hd, hr.queue⟩ hc
  cases c with
  | drop => exact absurd rfl hc
  | act a =>
    have hi := s.perform_isInner a
    have hb : batchOf (s.perform a).2.1 = none :=
      List.append_nil (s.perform a).2.1 ▸ batchOf_append hi []
    have ha : (s.begun (.act a)).Accounted initial ps := by
      rw [Machine.Accounted, show batchOf (s.begun (.act a)).stack = none from hb]
      exact h.perform (Machine.moments_scripted hmoment) a
    rw [List.filterMap_cons_none rfl, List.filterMap_nil, List.append_nil]
    exact Machine.run_accounted _ hbegun hm hb ha
  | advance lsn =>
    by_cases hl : lsn < s.latest
    · rw [hr.call_refused hd hl]
      rw [List.filterMap_cons_none rfl, List.filterMap_nil, List.append_nil]
      apply Accounted.log
      · exact h.of_eq rfl rfl rfl rfl rfl rfl
      · have hn : (refusal s.latest lsn).event = Log.Event.lsnRegression.name := rfl
        rw [hn]
        decide
    · obtain ⟨-, hledger, hstack⟩ := begun_advance ⟨hd, hr.queue⟩ hl
      have hp : (s.begun (.advance lsn)).ledger.Phased :=
        hledger ▸ (hr.phased hd).turn (.advance rfl hr.queue hl)
      have hb : (batchOf (s.begun (.advance lsn)).stack).isSome := by rw [hstack]; rfl
      have hbegin : s.begin (.advance lsn) = _ := advance_of_le (by simp [hd]) hl
      have hlatest : (s.begun (.advance lsn)).state.latest = lsn := by
        rw [begun, hbegin]
        rfl
      have ha : (s.begun (.advance lsn)).Accounted initial ps := by
        rw [begun, hbegin]
        exact h.advance lsn
      obtain ⟨taken, hans, hacc⟩ := Machine.run_accounted_advance _ hbegun hm hp hb ha
      rw [hlatest] at hacc
      have hcount : (s.call (.advance lsn)).2 = .count taken := hans
      rw [hcount]
      exact hacc

theorem Accounted.calls (h : s.Accounted initial ps none) (hr : s.Ready)
    (hmoment : ReflTransGen Machine.Next (.opened initial metrics) ⟨s, [], answer⟩) (hd : s.dropped = false)
    {cs : List Call} (hc : .drop ∉ cs) :
    (s.calls cs).1.Accounted initial (ps ++ (s.transcript cs).filterMap Call.accepted?) none := by
  induction cs generalizing s ps answer with
  | nil => exact (List.append_nil ps).symm ▸ h
  | cons c cs ih =>
    have hne : c ≠ .drop := fun he => hc (he ▸ List.mem_cons_self ..)
    have hlive := (call_turns ⟨hd, hr.queue⟩ hne).1.live
    have hcs := ih (h.call hr hmoment hd hne) (hr.call c)
      (hmoment.trans (Machine.call_moments hr.queue c answer)) hlive fun hm => hc (List.mem_cons_of_mem _ hm)
    rwa [List.append_assoc, ← List.filterMap_append] at hcs

/-- With nothing due, each registration has started, was cancelled or waits. -/
theorem AtRest.length_registeredIn (hs : s.AtRest) (hp : (s.ledger none).Phased)
    (hb : (s.ledger none).Balanced initial) :
    (registeredIn s.history).length =
      (startedIn s.history).length + (removedIn s.history).length + s.waiters.length := by
  have hperm : (startedIn s.trace ++ removedIn s.trace ++ s.waiters.map (·.ticket)).Perm
      (registeredIn s.trace) := by
    apply List.perm_iff_count.mpr
    intro t
    have hplaced := hb.placed t
    rw [Ledger.places, hs.due_eq_nil hp, List.map_nil, List.count_nil] at hplaced
    rw [List.count_append, List.count_append]
    exact hplaced
  have hlen := hperm.length_eq
  rw [s.startedIn_trace, s.removedIn_trace, s.registeredIn_trace, List.length_append,
    List.length_append, List.length_map] at hlen
  exact hlen.symm

/-- After each call on a list with counters of its own: the registrations are those that were fired, those
that were cancelled and those that are pending. Fired are those that the accepted advances say they have
fired and those that were satisfied already while no advance was running; cancelled are those whose
cancellation succeeded, each with its line. Each accepted advance has its line, with its own count. -/
theorem calls_account (initial : Lsn) (cs : List Call) (hc : .drop ∉ cs) :
    let s := ((opened initial {}).calls cs).1
    let accepted := ((opened initial {}).transcript cs).filterMap Call.accepted?
    (∃ pending, (s.call (.act .pending)).2 = .count pending ∧
      (registeredIn s.history).length.toUInt64 =
        s.metrics.waitersFired + s.metrics.waitersCancelled + pending.toUInt64) ∧
    s.metrics.waitersFired =
      ((accepted.map (·.2)).sum + deferredIn initial s.history).toUInt64 ∧
    s.metrics.waitersCancelled = (removedIn s.history).length.toUInt64 ∧
    (linesOf .waiterCancelled s.history).length = (removedIn s.history).length ∧
    linesOf .lsnAdvanced s.history = accepted.map fun p =>
      ⟨.trace, "LSN_ADVANCED", [("fired", Text.numeral p.2), ("latest", p.1.text)]⟩ := by
  intro s accepted
  obtain ⟨hrest, hb, hp⟩ := calls_balanced initial {} hc
  have h₀ : (opened initial {}).Accounted initial [] none := ⟨rfl, rfl, rfl, rfl, rfl, rfl⟩
  have h : s.Accounted initial accepted none :=
    h₀.calls (opened_ready initial {}) .refl rfl hc
  have hlen := hrest.length_registeredIn hp hb
  have hstarted := h.started
  have hq : s.queue = [] := hrest.queue
  have hpending : s.call (.act .pending) = (s, .count s.waiters.length) := by
    apply call_idle _ hq
    simp only [begin, perform, show s.dropped = false from hrest.live, Bool.false_eq_true, if_false]
  refine ⟨⟨s.waiters.length, congrArg (·.2) hpending, ?_⟩, h.fired, h.cancelled, h.cancellations,
    h.advances⟩
  rw [hq] at hstarted
  simp only [List.length_nil, Option.elim_none, Nat.add_zero] at hstarted
  rw [show (registeredIn s.history).length = _ from hlen, hstarted, h.fired, h.cancelled]
  exact (UInt64.ofNat_add ..).trans (congrArg (· + _) (UInt64.ofNat_add ..))

/-- Two registrations within an advance, one of them in time for it, a cancellation by a callback that
panics, and a callback for the notifier. -/
theorem calls_account_nested :
    let cs : List Call := [
      .act (.register "a" ⟨1, 1⟩ [.register "c" ⟨1, 1⟩ [.await "r" ⟨1, 0⟩] true, .cancel "b"] true),
      .act (.register "b" ⟨1, 9⟩ [] false), .act (.register "d" ⟨2, 0⟩ [] false), .advance ⟨1, 2⟩,
      .advance ⟨1, 1⟩, .act (.register "e" ⟨1, 2⟩ [.register "f" ⟨1, 1⟩ [] false] false), .advance ⟨1, 3⟩]
    let s := ((opened .zero {}).calls cs).1
    .drop ∉ cs ∧ s.metrics.waitersFired = 5 ∧ s.metrics.waitersCancelled = 1 ∧
      deferredIn .zero s.history = 2 ∧
      linesOf .lsnAdvanced s.history = [
        ⟨.trace, "LSN_ADVANCED", [("fired", "3"), ("latest", "1:2")]⟩,
        ⟨.trace, "LSN_ADVANCED", [("fired", "0"), ("latest", "1:3")]⟩] := by
  intro cs s
  have hc : Call.drop ∉ cs := by simp [cs]
  obtain ⟨-, hfired, hcancelled, -, hlines⟩ := calls_account .zero cs hc
  refine ⟨hc, hfired.trans (by decide +kernel), hcancelled.trans (by decide +kernel),
    by decide +kernel, hlines.trans (by decide +kernel)⟩

end State
end ReplicaRouting.WaitList
