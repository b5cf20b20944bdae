import Mathlib.Logic.Relation
import ReplicaRouting.WaitList.Run
/-!
What a step of a run can be, and what only the owner of a list changes: its latest position, whether it is
dropped, and the count and the lines of refused advances. All that a call sets off leaves these alone and
adds to the history.
-/

namespace ReplicaRouting.WaitList

open Relation (ReflTransGen)

def Entry.logged? : Entry → Option Log.Record
  | .logged r => some r
  | _ => none

def linesOf (e : Log.Event) (es : List Entry) : List Log.Record :=
  (es.filterMap (·.logged?)).filter (·.event = e.name)

def refusal (latest attempted : Lsn) : Log.Record :=
  .of .lsnRegression [("attempted", attempted.text), ("latest", latest.text)]

section Lines
variable (e : Log.Event)

@[simp] theorem linesOf_append (es fs : List Entry) :
    linesOf e (es ++ fs) = linesOf e es ++ linesOf e fs := by
  simp [linesOf]

theorem linesOf_logged (r : Log.Record) :
    linesOf e [.logged r] = if r.event = e.name then [r] else [] := by
  simp only [linesOf, Entry.logged?, List.filterMap_cons, List.filterMap_nil, List.filter_cons,
    List.filter_nil, decide_eq_true_eq]

end Lines

namespace State

section Advance
variable {s : State} {lsn : Lsn}

theorem advance_of_dropped (hd : s.dropped = true) : s.advance lsn = (s, [], .dropped) :=
  if_pos hd

theorem advance_of_lt (hd : ¬ s.dropped = true) (h : lsn < s.latest) :
    s.advance lsn = ({ s with metrics := s.metrics.countRegression }.log (refusal s.latest lsn), [],
      .refused (.regression s.latest lsn)) :=
  (if_neg hd).trans (if_pos h)

theorem advance_of_le (hd : ¬ s.dropped = true) (h : ¬ lsn < s.latest) :
    s.advance lsn = ({ s with
      latest := lsn
      advancing := true
      waiters := s.waiters.filter fun w => !decide (w.target ≤ lsn) }.emit (.recorded lsn),
      [.batch lsn 0 (s.waiters.filter fun w => w.target ≤ lsn)
        (s.waiters.filter fun w => w.target ≤ lsn).length], .nothing) :=
  (if_neg hd).trans (if_neg h)

end Advance

structure Steady (s s' : State) : Prop where
  latest : s'.latest = s.latest
  dropped : s'.dropped = s.dropped
  regressions : s'.metrics.regressions = s.metrics.regressions
  history : ∃ new, s'.history = s.history ++ new ∧ linesOf .lsnRegression new = []

variable {s s' s'' : State}

theorem Steady.of_eq (hl : s'.latest = s.latest) (hd : s'.dropped = s.dropped)
    (hr : s'.metrics.regressions = s.metrics.regressions) (hh : s'.history = s.history) :
    s.Steady s' :=
  ⟨hl, hd, hr, [], by rw [hh, List.append_nil], rfl⟩

theorem Steady.refl (s : State) : s.Steady s := .of_eq rfl rfl rfl rfl

theorem Steady.trans (h : s.Steady s') (h' : s'.Steady s'') : s.Steady s'' := by
  obtain ⟨new, hn, hl⟩ := h.history
  obtain ⟨more, hm, hl'⟩ := h'.history
  refine ⟨h'.latest.trans h.latest, h'.dropped.trans h.dropped,
    h'.regressions.trans h.regressions, new ++ more, ?_, ?_⟩
  · rw [hm, hn, List.append_assoc]
  · simp [hl, hl']

theorem Steady.emit (h : s.Steady s') {e : Entry} (he : linesOf .lsnRegression [e] = []) :
    s.Steady (s'.emit e) :=
  h.trans ⟨rfl, rfl, rfl, [e], rfl, he⟩

theorem Steady.log (h : s.Steady s') {e : Log.Event}
    (he : e.name ≠ Log.Event.lsnRegression.name) (fields : List (String × String)) :
    s.Steady (s'.log (.of e fields)) := by
  apply h.emit
  rw [linesOf_logged]
  exact if_neg he

theorem Steady.settle (h : s.Steady s') (cell : Nat) (o : Result.Outcome Lsn) :
    s.Steady (s'.settle cell o).1 := by
  have hs : s.Steady (s'.emit (.settled cell o)) := h.emit rfl
  unfold State.settle
  dsimp only
  split
  · exact hs.trans (.of_eq rfl rfl rfl rfl)
  · exact hs

theorem Steady.hear (h : s.Steady s') (l : Listener) (o : Result.Outcome Lsn) :
    s.Steady (s'.hear l o).1 :=
  h.emit rfl

theorem Steady.start (h : s.Steady s') (w : Waiter) (lsn : Lsn) (place : Place) :
    s.Steady (s'.start w lsn place).1 := by
  unfold State.start
  split
  · exact h.emit rfl
  · apply Steady.settle
    exact h.emit rfl

theorem notify_eq_none (h : s.notify = none) : s.queue = [] := by
  unfold State.notify at h
  split at h
  · assumption
  · cases h

theorem notify_eq_some {begun : State × List Frame} (h : s.notify = some begun) :
    ∃ w lsn queue, s.queue = (w, lsn) :: queue ∧
      begun = (({ s with queue := queue }.start w lsn .notifier).1,
        ({ s with queue := queue }.start w lsn .notifier).2 ++ [.notifying lsn]) := by
  unfold State.notify at h
  split at h
  · cases h
  · rename_i w lsn queue hq
    exact ⟨w, lsn, queue, hq, (Option.some.inj h).symm⟩

theorem Steady.notify (h : s.Steady s') {begun : State × List Frame}
    (hn : s'.notify = some begun) : s.Steady begun.1 := by
  obtain ⟨w, lsn, queue, -, rfl⟩ := notify_eq_some hn
  apply Steady.start
  exact h.trans (.of_eq rfl rfl rfl rfl)

theorem Steady.register (h : s.Steady s') (target : Lsn) (callback : Callback) :
    s.Steady (s'.register target callback).1 := by
  let drawn : State := { s' with tickets := s'.tickets + 1 }
  have hd : s.Steady drawn := h.trans (.of_eq rfl rfl rfl rfl)
  have hr : s.Steady (drawn.emit (.registered s'.tickets target)) := hd.emit rfl
  unfold State.register accept
  dsimp only
  split
  · exact hr.trans (.of_eq rfl rfl rfl rfl)
  · split <;> exact hr.trans (.of_eq rfl rfl rfl rfl)

theorem cancel_cases (s : State) (h : Handle) :
    (∀ w ∈ s.waiters, w.isFor h = false) ∧ s.cancel h = (s.emit (.cancelled h false), [], false) ∨
    ∃ w ∈ s.waiters, w.isFor h = true ∧
      ((∃ tag steps panics, w.callback = .script tag steps panics) ∧
          s.cancel h = ((s.remove h).withdraw h, [], true) ∨
        ∃ cell, w.callback = .settle cell ∧
          s.cancel h = (((s.remove h).settle cell (.failed (.router .abandoned))).1,
            ((s.remove h).settle cell (.failed (.router .abandoned))).2 ++ [.withdrawing h], true)) := by
  unfold State.cancel
  cases hfound : s.waiters.find? (·.isFor h) with
  | none => exact .inl ⟨fun w hw => Bool.eq_false_iff.mpr (List.find?_eq_none.mp hfound w hw), rfl⟩
  | some w =>
    have hfor := List.find?_some hfound
    refine .inr ⟨w, List.mem_of_find?_eq_some hfound, hfor, ?_⟩
    cases hc : w.callback with
    | script tag steps panics => exact .inl ⟨⟨tag, steps, panics, rfl⟩, by simp only [hc]⟩
    | settle cell => exact .inr ⟨cell, rfl, by simp only [hc]⟩

theorem Steady.remove (h : s.Steady s') (x : Handle) : s.Steady (s'.remove x) := by
  apply Steady.emit _ rfl
  exact h.trans (.of_eq rfl rfl rfl rfl)

theorem Steady.withdraw (h : s.Steady s') (x : Handle) : s.Steady (s'.withdraw x) := by
  apply Steady.log _ (by decide)
  exact h.trans (.of_eq rfl rfl rfl rfl)

theorem Steady.cancel (h : s.Steady s') (x : Handle) : s.Steady (s'.cancel x).1 := by
  obtain ⟨-, hc⟩ | ⟨w, -, -, ⟨-, hc⟩ | ⟨cell, -, hc⟩⟩ := s'.cancel_cases x <;> rw [hc]
  · exact h.emit rfl
  · exact (h.remove x).withdraw x
  · exact (h.remove x).settle ..

theorem Steady.listen (h : s.Steady s') (cell : Nat) (tag : String) (steps : List Action)
    (panics : Bool) : s.Steady (s'.listen cell tag steps panics).1 := by
  let more : State := { s' with listeners := s'.listeners + 1 }
  have hm : s.Steady more := h.trans (.of_eq rfl rfl rfl rfl)
  have hl : s.Steady (more.emit (.listening s'.listeners cell)) := hm.emit rfl
  unfold State.listen
  dsimp only
  split
  · exact hl
  · exact hl.trans (.of_eq rfl rfl rfl rfl)
  · exact hl.hear ..

theorem Steady.perform (h : s.Steady s') (a : Action) : s.Steady (s'.perform a).1 := by
  cases a with
  | register tag target steps panics =>
    simp only [State.perform]
    split
    · exact h
    · exact (h.register target _).trans (.of_eq rfl rfl rfl rfl)
  | await name target =>
    simp only [State.perform]
    split
    · exact h
    · apply Steady.register
      exact h.trans (.of_eq rfl rfl rfl rfl)
  | cancel tag =>
    simp only [State.perform]
    split
    · exact h
    · split
      · exact h
      · exact h.cancel _
  | listen name tag steps panics =>
    simp only [State.perform]
    split
    · exact h
    · exact h.listen ..
  | poll | handle | latest | pending | metrics | describe | misread =>
    simp only [State.perform]
    repeat' split
    all_goals exact h

theorem Steady.rest (h : s.Steady s') (lsn : Lsn) (fired : Nat) :
    s.Steady (s'.rest lsn fired) := by
  apply Steady.log _ (by decide)
  exact h.trans (.of_eq rfl rfl rfl rfl)

theorem Steady.discard (h : s.Steady s') (w : Waiter) : s.Steady (s'.discard w).1 := by
  unfold State.discard
  split
  · exact h
  · exact h.settle ..

end State

namespace Machine

/-- What a step can be, by the innermost frame. -/
inductive Goes : Machine → Machine → Prop
  | notify {s : State} {begun : State × List Frame} {answer : Answer}
      (hn : s.notify = some begun) : Goes ⟨s, [], answer⟩ ⟨begun.1, begun.2, answer⟩
  | perform {s : State} {tag : String} {a : Action} {steps : List Action} {panics : Bool}
      {below : List Frame} {answer : Answer} :
      Goes ⟨s, .body tag (a :: steps) panics :: below, answer⟩ ⟨(s.perform a).1, (s.perform a).2.1 ++
        .answering tag (s.perform a).2.2 :: .body tag steps panics :: below, answer⟩
  | finish {s : State} {tag : String} {below : List Frame} {answer : Answer} :
      Goes ⟨s, .body tag [] false :: below, answer⟩ ⟨s, below, answer⟩
  | panic {s : State} {tag : String} {below : List Frame} {answer : Answer} :
      Goes ⟨s, .body tag [] true :: below, answer⟩ (unwind ⟨s, below, answer⟩)
  | answer {s : State} {tag : String} {a : Answer} {below : List Frame} {answer : Answer} :
      Goes ⟨s, .answering tag a :: below, answer⟩ ⟨s.emit (.answered tag a), below, answer⟩
  | start {s : State} {lsn : Lsn} {round : Nat} {w : Waiter} {rest : List Waiter} {taken : Nat}
      {below : List Frame} {answer : Answer} :
      Goes ⟨s, .batch lsn round (w :: rest) taken :: below, answer⟩ ⟨(s.start w lsn (.batch round)).1,
        (s.start w lsn (.batch round)).2 ++ .batch lsn round rest taken :: below, answer⟩
  | rest {s : State} {lsn : Lsn} {round taken : Nat} {below : List Frame} {answer : Answer}
      (hl : s.late = []) :
      Goes ⟨s, .batch lsn round [] taken :: below, answer⟩ ⟨s.rest lsn taken, below, .count taken⟩
  | round {s : State} {lsn : Lsn} {round taken : Nat} {w : Waiter} {late : List Waiter}
      {below : List Frame} {answer : Answer} (hl : s.late = w :: late) :
      Goes ⟨s, .batch lsn round [] taken :: below, answer⟩
        ⟨({ s with late := [] }.start w lsn (.batch (round + 1))).1,
          ({ s with late := [] }.start w lsn (.batch (round + 1))).2 ++
            .batch lsn (round + 1) late (taken + late.length + 1) :: below, answer⟩
  | notified {s : State} {lsn : Lsn} {below : List Frame} {answer : Answer} :
      Goes ⟨s, .notifying lsn :: below, answer⟩ ⟨s, below, answer⟩
  | delivered {s : State} {o : Result.Outcome Lsn} {position total : Nat} {below : List Frame}
      {answer : Answer} :
      Goes ⟨s, .delivering o [] position total :: below, answer⟩ ⟨s, below, answer⟩
  | hear {s : State} {o : Result.Outcome Lsn} {l : Listener} {rest : List Listener}
      {position total : Nat} {below : List Frame} {answer : Answer} :
      Goes ⟨s, .delivering o (l :: rest) position total :: below, answer⟩ ⟨(s.hear l o).1,
        (s.hear l o).2 ++ .delivering o rest (position + 1) total :: below, answer⟩
  | withdraw {s : State} {x : Handle} {below : List Frame} {answer : Answer} :
      Goes ⟨s, .withdrawing x :: below, answer⟩ ⟨s.withdraw x, below, answer⟩
  | sweep {s : State} {begun : State × List Frame} {rest : List Waiter} {below : List Frame}
      {answer : Answer} (hn : s.notify = some begun) :
      Goes ⟨s, .discarding rest :: below, answer⟩
        ⟨begun.1, begun.2 ++ .discarding rest :: below, answer⟩
  | swept {s : State} {below : List Frame} {answer : Answer} (hn : s.notify = none) :
      Goes ⟨s, .discarding [] :: below, answer⟩ ⟨s, below, answer⟩
  | discard {s : State} {w : Waiter} {rest : List Waiter} {below : List Frame} {answer : Answer}
      (hn : s.notify = none) :
      Goes ⟨s, .discarding (w :: rest) :: below, answer⟩
        ⟨(s.discard w).1, (s.discard w).2 ++ .discarding rest :: below, answer⟩

variable {m m' : Machine}

theorem step_goes (h : m.step = some m') : m.Goes m' := by
  obtain ⟨s, stack, answer⟩ := m
  unfold step at h
  dsimp only at h
  split at h
  · split at h
    · cases h
    · rename_i hn
      obtain rfl := Option.some.inj h
      exact .notify hn
  · obtain rfl := Option.some.inj h
    exact .perform
  · rename_i panics below
    obtain rfl := Option.some.inj h
    cases panics with
    | false => exact .finish
    | true => exact .panic
  · obtain rfl := Option.some.inj h
    exact .answer
  · obtain rfl := Option.some.inj h
    exact .start
  · split at h
    · rename_i hl
      obtain rfl := Option.some.inj h
      exact .rest hl
    · rename_i hl
      obtain rfl := Option.some.inj h
      exact .round hl
  · obtain rfl := Option.some.inj h
    exact .notified
  · obtain rfl := Option.some.inj h
    exact .delivered
  · obtain rfl := Option.some.inj h
    exact .hear
  · obtain rfl := Option.some.inj h
    exact .withdraw
  · split at h
    · rename_i hn
      obtain rfl := Option.some.inj h
      exact .sweep hn
    · rename_i hn
      obtain rfl := Option.some.inj h
      exact .swept hn
    · rename_i hn
      obtain rfl := Option.some.inj h
      exact .discard hn

theorem caught_event {r : Log.Record} {fs below : List Frame}
    (h : caught? Frame.panicRecord? fs = some (r, below)) :
    r.event = Log.Event.waiterPanicked.name ∨ r.event = Log.Event.listenerPanicked.name := by
  induction fs with
  | nil => cases h
  | cons f fs ih =>
    cases f with
    | body | answering | withdrawing | discarding => exact ih h
    | batch | notifying =>
      obtain ⟨rfl, -⟩ := Prod.mk.inj (Option.some.inj h)
      exact .inl rfl
    | delivering =>
      obtain ⟨rfl, -⟩ := Prod.mk.inj (Option.some.inj h)
      exact .inr rfl

theorem unwind_steady (m : Machine) : m.state.Steady m.unwind.state := by
  unfold unwind
  split
  · exact .refl _
  · rename_i r below h
    apply (State.Steady.refl m.state).emit
    rw [linesOf_logged, if_neg]
    rcases caught_event h with hr | hr <;> rw [hr] <;> decide

theorem step_steady (h : m.step = some m') : m.state.Steady m'.state := by
  have hm := State.Steady.refl m.state
  cases step_goes h with
  | notify hn | sweep hn => exact hm.notify hn
  | perform => exact hm.perform _
  | finish | notified | delivered | swept => exact hm
  | @panic s tag below answer => exact unwind_steady ⟨s, below, answer⟩
  | answer => exact hm.emit rfl
  | start => exact hm.start ..
  | rest => exact hm.rest ..
  | round =>
    apply State.Steady.start
    exact .of_eq rfl rfl rfl rfl
  | hear => exact hm.hear ..
  | withdraw => exact hm.withdraw _
  | discard => exact hm.discard _

/-- A panic above a frame at which it stops. -/
theorem unwind_over {f : Frame} (hf : f.panicRecord?.isSome) (s : State) (fs below : List Frame) (answer : Answer) :
    ∃ r above, unwind ⟨s, fs ++ f :: below, answer⟩ = ⟨s.log r, above ++ f :: below, answer⟩ ∧ above ⊆ fs := by
  obtain ⟨record, hrecord⟩ := Option.isSome_iff_exists.mp hf
  obtain ⟨r, above, hc, hsub⟩ := caught_over Frame.panicRecord? hrecord fs below
  refine ⟨r, above, ?_, hsub⟩
  simp only [unwind, hc]

def Step (m m' : Machine) : Prop := m.step = some m'

theorem steps_steady (h : ReflTransGen Step m m') : m.state.Steady m'.state := by
  induction h with
  | refl => exact .refl _
  | tail _ h ih => exact ih.trans (step_steady h)

theorem run_steps (m : Machine) : ReflTransGen Step m m.run := by
  induction m using run.induct with
  | case1 m h =>
    rw [run, h]
  | case2 m m' h ih =>
    rw [run, h]
    exact .head h ih

theorem run_of_steps (h : ReflTransGen Step m m') : m.run = m'.run := by
  induction h with
  | refl => rfl
  | @tail k k' _ h ih =>
    have hk : k.step = some k' := h
    rw [ih, run, hk]

theorem step_run (m : Machine) : m.run.step = none := by
  induction m using run.induct with
  | case1 m h =>
    rw [run, h]
    exact h
  | case2 m m' h ih =>
    rw [run, h]
    exact ih

/-- Machines that every step keeps alike are alike at the end of their runs. -/
theorem run_rel {R : Machine → Machine → Prop}
    (hstep : ∀ {m m' : Machine}, R m m' → Option.Rel R m.step m'.step) (h : R m m') : R m.run m'.run := by
  induction m using run.induct generalizing m' with
  | case1 m hn =>
    have hs := hstep h
    rw [hn] at hs
    generalize hn' : m'.step = k' at hs
    cases hs
    rw [run, hn, run, hn']
    exact h
  | case2 m k hn ih =>
    have hs := hstep h
    rw [hn] at hs
    generalize hn' : m'.step = k' at hs
    cases hs with
    | some hk =>
      rw [run, hn, run, hn']
      exact ih hk

/-- A machine that stands still has nothing left on its stack or in its queue. -/
theorem idle_of_step (h : m.step = none) : m.stack = [] ∧ m.state.queue = [] := by
  obtain ⟨s, stack, answer⟩ := m
  cases stack with
  | nil =>
    refine ⟨rfl, ?_⟩
    simp only [step] at h
    split at h
    · rename_i hn
      exact State.notify_eq_none hn
    · cases h
  | cons f below =>
    cases f with
    | body tag steps panics => cases steps <;> cases h
    | answering | notifying | withdrawing => cases h
    | delivering o rest => cases rest <;> cases h
    | batch lsn round rest taken =>
      cases rest with
      | cons => cases h
      | nil =>
        simp only [step] at h
        split at h <;> cases h
    | discarding rest =>
      simp only [step] at h
      split at h <;> cases h

end Machine
end ReplicaRouting.WaitList
