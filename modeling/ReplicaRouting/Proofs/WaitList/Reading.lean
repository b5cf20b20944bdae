import ReplicaRouting.Proofs.WaitList.Steady
/-!
Lists seen through a reading, which leaves out some log lines and may not tell counts of refused advances
apart. Lists that are alike in a reading do the same work, give answers that are alike, and stay alike.
-/

namespace ReplicaRouting.WaitList

structure Reading where
  /-- What is seen of the count of refused advances. -/
  count : UInt64 → UInt64
  count_next {r r' : UInt64} (h : count r = count r') : count (r + 1) = count (r' + 1)
  /-- The log lines that are seen. -/
  keeps : Log.Record → Bool

namespace Reading
variable (b : Reading)

def metrics (m : Metrics) : Metrics := { m with regressions := b.count m.regressions }

def answer : Answer → Answer
  | .metrics m => .metrics (b.metrics m)
  | a => a

def seen? : Entry → Option Entry
  | .logged r => if b.keeps r then some (.logged r) else none
  | .answered tag a => some (.answered tag (b.answer a))
  | e => some e

def entries (es : List Entry) : List Entry := es.filterMap b.seen?

def state (s : State) : State :=
  { s with metrics := b.metrics s.metrics, history := b.entries s.history }

/-- The lists differ at most in what the reading does not see. -/
inductive Alike (s : State) : State → Prop
  | intro {regressions : UInt64} {history : List Entry}
      (hr : b.count s.metrics.regressions = b.count regressions)
      (hh : b.entries s.history = b.entries history) :
      Alike s { s with metrics := { s.metrics with regressions }, history }

variable {b} {s s' s'' : State}

theorem entries_append (es fs : List Entry) :
    b.entries (es ++ fs) = b.entries es ++ b.entries fs :=
  List.filterMap_append

theorem entries_emit {es es' : List Entry} {e e' : Entry} (hh : b.entries es = b.entries es')
    (he : b.seen? e = b.seen? e') : b.entries (es ++ [e]) = b.entries (es' ++ [e']) := by
  simp only [entries_append, hh]
  simp only [entries, List.filterMap_cons, List.filterMap_nil, he]

theorem Alike.refl (s : State) : b.Alike s s := .intro rfl rfl

theorem Alike.symm (h : b.Alike s s') : b.Alike s' s := by
  obtain ⟨hr, hh⟩ := h
  exact .intro hr.symm hh.symm

theorem Alike.trans (h : b.Alike s s') (h' : b.Alike s' s'') : b.Alike s s'' := by
  obtain ⟨hr, hh⟩ := h
  obtain ⟨hr', hh'⟩ := h'
  exact .intro (hr.trans hr') (hh.trans hh')

theorem Alike.dropped (h : b.Alike s s') : s'.dropped = s.dropped := by
  obtain ⟨hr, hh⟩ := h
  rfl

theorem Alike.latest (h : b.Alike s s') : s'.latest = s.latest := by
  obtain ⟨hr, hh⟩ := h
  rfl

theorem Alike.waiters (h : b.Alike s s') : s'.waiters = s.waiters := by
  obtain ⟨hr, hh⟩ := h
  rfl

theorem Alike.state_eq (h : b.Alike s s') : b.state s = b.state s' := by
  obtain ⟨hr, hh⟩ := h
  simp only [state, metrics, hr, hh]

/-! ### The operations of a list -/

theorem Alike.emit (h : b.Alike s s') {e e' : Entry} (he : b.seen? e = b.seen? e') :
    b.Alike (s.emit e) (s'.emit e') := by
  obtain ⟨hr, hh⟩ := h
  exact .intro hr (entries_emit hh he)

theorem Alike.log (h : b.Alike s s') (r : Log.Record) : b.Alike (s.log r) (s'.log r) :=
  h.emit rfl

theorem Alike.unseen (h : b.Alike s s') {r : Log.Record} (hr : b.keeps r = false) :
    b.Alike (s.log r) s' := by
  obtain ⟨hc, hh⟩ := h
  have he : b.entries (s.log r).history = b.entries s.history := by
    apply (entries_append ..).trans
    simp [entries, seen?, hr]
  exact .intro hc (he.trans hh)

def Begun (b : Reading) (r r' : State × List Frame) : Prop := b.Alike r.1 r'.1 ∧ r.2 = r'.2

theorem Alike.settle (h : b.Alike s s') (cell : Nat) (o : Result.Outcome Lsn) :
    b.Begun (s.settle cell o) (s'.settle cell o) := by
  obtain ⟨hr, hh⟩ := h
  have hh' := entries_emit hh (e := .settled cell o) rfl
  simp only [State.settle, State.emit]
  split <;> exact ⟨.intro hr hh', rfl⟩

theorem Alike.hear (h : b.Alike s s') (l : Listener) (o : Result.Outcome Lsn) :
    b.Begun (s.hear l o) (s'.hear l o) :=
  ⟨h.emit rfl, rfl⟩

theorem Alike.start (h : b.Alike s s') (w : Waiter) (lsn : Lsn) (place : Place) :
    b.Begun (s.start w lsn place) (s'.start w lsn place) := by
  simp only [State.start]
  split
  · exact ⟨h.emit rfl, rfl⟩
  · apply Alike.settle
    exact h.emit rfl

theorem Alike.notify (h : b.Alike s s') : Option.Rel b.Begun s.notify s'.notify := by
  obtain ⟨hr, hh⟩ := h
  simp only [State.notify]
  split
  · exact .none
  · rename_i w lsn queue hq
    have hs : b.Alike { s with queue } { s with
        metrics := { s.metrics with regressions := _ }, history := _, queue } := .intro hr hh
    obtain ⟨ha, hf⟩ := hs.start w lsn .notifier
    exact .some ⟨ha, congrArg (· ++ _) hf⟩

theorem Alike.accept (h : b.Alike s s') (w : Waiter) : b.Alike (s.accept w) (s'.accept w) := by
  obtain ⟨hr, hh⟩ := h
  by_cases hl : s.latest < w.target
  · simp only [State.accept, hl, if_true]
    exact .intro hr hh
  · by_cases ha : s.advancing = true
    · simp only [State.accept, hl, ha, if_true, if_false]
      exact .intro hr hh
    · simp only [State.accept, hl, ha, if_false]
      exact .intro hr hh

theorem Alike.register (h : b.Alike s s') (target : Lsn) (callback : Callback) :
    b.Alike (s.register target callback).1 (s'.register target callback).1 ∧
      (s.register target callback).2 = (s'.register target callback).2 := by
  obtain ⟨hr, hh⟩ := h
  refine ⟨Alike.accept ?_ _, rfl⟩
  exact .intro hr (entries_emit hh (e := .registered s.tickets target) rfl)

theorem Alike.bind (h : b.Alike s s') (tag : String) {x x' : Handle} (hx : x = x') :
    b.Alike { s with handles := s.handles.bind tag x } { s' with handles := s'.handles.bind tag x' } := by
  obtain ⟨hr, hh⟩ := h
  exact hx ▸ .intro hr hh

theorem Alike.remove (h : b.Alike s s') (x : Handle) : b.Alike (s.remove x) (s'.remove x) := by
  obtain ⟨hr, hh⟩ := h
  exact .intro hr (entries_emit hh rfl)

theorem Alike.withdraw (h : b.Alike s s') (x : Handle) : b.Alike (s.withdraw x) (s'.withdraw x) := by
  obtain ⟨hr, hh⟩ := h
  refine Alike.log ?_ _
  exact .intro hr hh

theorem Alike.cancel (h : b.Alike s s') (x : Handle) :
    b.Alike (s.cancel x).1 (s'.cancel x).1 ∧ (s.cancel x).2 = (s'.cancel x).2 := by
  simp only [State.cancel, h.waiters]
  split
  · exact ⟨h.emit rfl, rfl⟩
  · split
    · exact ⟨(h.remove x).withdraw x, rfl⟩
    · obtain ⟨ha, hf⟩ := (h.remove x).settle _ (.failed (.router .abandoned))
      exact ⟨ha, by rw [hf]⟩

theorem Alike.listen (h : b.Alike s s') (cell : Nat) (tag : String) (steps : List Action)
    (panics : Bool) : b.Begun (s.listen cell tag steps panics) (s'.listen cell tag steps panics) := by
  obtain ⟨hr, hh⟩ := h
  have hh' := entries_emit hh (e := .listening s.listeners cell) rfl
  simp only [State.listen, State.emit]
  split
  · exact ⟨.intro hr hh', rfl⟩
  · exact ⟨.intro hr hh', rfl⟩
  · refine ⟨Alike.emit ?_ rfl, rfl⟩
    exact .intro hr hh'

/-- What is done and answered, seen through the reading. -/
def Done (b : Reading) (r r' : State × List Frame × Answer) : Prop :=
  b.Alike r.1 r'.1 ∧ r.2.1 = r'.2.1 ∧ b.answer r.2.2 = b.answer r'.2.2

theorem Alike.perform (h : b.Alike s s') (a : Action) : b.Done (s.perform a) (s'.perform a) := by
  have hs := h
  obtain ⟨hr, hh⟩ := h
  cases a with
  | register tag target steps panics =>
    simp only [State.perform]
    split
    · exact ⟨hs, rfl, rfl⟩
    · obtain ⟨ha, he⟩ := hs.register target (.script tag steps panics)
      exact ⟨ha.bind tag he, rfl, rfl⟩
  | await name target =>
    simp only [State.perform]
    split
    · exact ⟨hs, rfl, rfl⟩
    · refine ⟨(Alike.register ?_ target _).1, rfl, rfl⟩
      exact .intro hr hh
  | cancel tag =>
    simp only [State.perform]
    split
    · exact ⟨hs, rfl, rfl⟩
    · split
      · exact ⟨hs, rfl, rfl⟩
      · obtain ⟨ha, he⟩ := hs.cancel _
        exact ⟨ha, congrArg (·.1) he, congrArg (b.answer <| .flag ·.2) he⟩
  | listen name tag steps panics =>
    simp only [State.perform]
    split
    · exact ⟨hs, rfl, rfl⟩
    · obtain ⟨ha, hf⟩ := hs.listen _ tag steps panics
      exact ⟨ha, hf, rfl⟩
  | metrics =>
    simp only [State.perform]
    split
    · exact ⟨hs, rfl, rfl⟩
    · refine ⟨hs, rfl, ?_⟩
      simp only [answer, metrics, hr]
  | poll | handle | latest | pending | describe | misread =>
    simp only [State.perform]
    repeat' split
    all_goals exact ⟨hs, rfl, rfl⟩

theorem Alike.advance (h : b.Alike s s') (lsn : Lsn) : b.Done (s.advance lsn) (s'.advance lsn) := by
  have hd' := h.dropped
  have hl' := h.latest
  by_cases hd : s.dropped = true
  · rw [State.advance_of_dropped hd, State.advance_of_dropped (hd'.trans hd)]
    exact ⟨h, rfl, rfl⟩
  · by_cases hl : lsn < s.latest
    · rw [State.advance_of_lt hd hl, State.advance_of_lt (hd' ▸ hd) (hl' ▸ hl), hl']
      refine ⟨Alike.log ?_ _, rfl, rfl⟩
      obtain ⟨hr, hh⟩ := h
      exact .intro (b.count_next hr) hh
    · rw [State.advance_of_le hd hl, State.advance_of_le (hd' ▸ hd) (hl' ▸ hl)]
      obtain ⟨hr, hh⟩ := h
      exact ⟨.intro hr (entries_emit hh (e := .recorded lsn) rfl), rfl, rfl⟩

theorem Alike.drop (h : b.Alike s s') : b.Done s.drop s'.drop := by
  have hd' := h.dropped
  by_cases hd : s.dropped = true
  · rw [State.drop, if_pos hd, State.drop, if_pos (hd'.trans hd)]
    exact ⟨h, rfl, rfl⟩
  · rw [State.drop, if_neg hd, State.drop, if_neg (hd' ▸ hd)]
    obtain ⟨hr, hh⟩ := h
    exact ⟨.intro hr hh, rfl, rfl⟩

theorem Alike.begin (h : b.Alike s s') (c : Call) : b.Done (s.begin c) (s'.begin c) := by
  cases c with
  | act a => exact h.perform a
  | advance lsn => exact h.advance lsn
  | drop => exact h.drop

theorem Alike.rest (h : b.Alike s s') (lsn : Lsn) (fired : Nat) :
    b.Alike (s.rest lsn fired) (s'.rest lsn fired) := by
  obtain ⟨hr, hh⟩ := h
  apply Alike.log
  exact .intro hr hh

theorem Alike.discard (h : b.Alike s s') (w : Waiter) : b.Begun (s.discard w) (s'.discard w) := by
  simp only [State.discard]
  split
  · exact ⟨h, rfl⟩
  · exact h.settle ..

/-! ### Runs -/

inductive Stacks : List Frame → List Frame → Prop
  | nil : Stacks [] []
  | same (f : Frame) {fs fs' : List Frame} (h : Stacks fs fs') : Stacks (f :: fs) (f :: fs')
  | answering (tag : String) {a a' : Answer} {fs fs' : List Frame}
      (ha : b.answer a = b.answer a') (h : Stacks fs fs') :
      Stacks (.answering tag a :: fs) (.answering tag a' :: fs')

variable {fs fs' : List Frame}

theorem Stacks.refl (fs : List Frame) : b.Stacks fs fs := by
  induction fs with
  | nil => exact .nil
  | cons f fs ih => exact .same f ih

theorem Stacks.append (new : List Frame) (h : b.Stacks fs fs') :
    b.Stacks (new ++ fs) (new ++ fs') := by
  induction new with
  | nil => exact h
  | cons f new ih => exact .same f ih

theorem Stacks.caught (h : b.Stacks fs fs') :
    Option.Rel (fun r r' => r.1 = r'.1 ∧ b.Stacks r.2 r'.2) (caught? Frame.panicRecord? fs)
      (caught? Frame.panicRecord? fs') := by
  induction h with
  | nil => exact .none
  | answering tag ha h ih => exact ih
  | same f h ih =>
    rw [caught?, caught?]
    cases f.panicRecord? with
    | none => exact ih
    | some r => exact .some ⟨rfl, .same f h⟩

structure Machines (b : Reading) (m m' : Machine) : Prop where
  state : b.Alike m.state m'.state
  stack : b.Stacks m.stack m'.stack
  answer : b.answer m.answer = b.answer m'.answer

variable {m m' : Machine} {answer answer' : Answer}

theorem Begun.machines {r r' : State × List Frame} (h : b.Begun r r') (hs : b.Stacks fs fs')
    (ha : b.answer answer = b.answer answer') :
    b.Machines ⟨r.1, r.2 ++ fs, answer⟩ ⟨r'.1, r'.2 ++ fs', answer'⟩ :=
  ⟨h.1, h.2 ▸ hs.append _, ha⟩

theorem Machines.unwind (h : b.Machines m m') : b.Machines m.unwind m'.unwind := by
  have hc := h.stack.caught
  unfold Machine.unwind
  generalize caught? Frame.panicRecord? m.stack = c at hc
  generalize caught? Frame.panicRecord? m'.stack = c' at hc
  cases hc with
  | none => exact ⟨h.state, .nil, rfl⟩
  | some hr =>
    obtain ⟨he, hs⟩ := hr
    exact ⟨h.state.emit (congrArg (b.seen? <| .logged ·) he), hs, h.answer⟩

theorem Machines.step (h : b.Machines m m') : Option.Rel b.Machines m.step m'.step := by
  obtain ⟨s, stack, answer⟩ := m
  obtain ⟨s', stack', answer'⟩ := m'
  obtain ⟨hs, hstack, ha⟩ := h
  dsimp only at hs hstack ha
  have hn := hs.notify
  cases hstack with
  | nil =>
    simp only [Machine.step]
    generalize s.notify = n at hn
    generalize s'.notify = n' at hn
    cases hn with
    | none => exact .none
    | some hb => exact .some ⟨hb.1, hb.2 ▸ .refl _, ha⟩
  | answering tag hx hbelow =>
    apply Option.Rel.some
    refine ⟨hs.emit ?_, hbelow, ha⟩
    simp only [seen?, hx]
  | @same f below below' hbelow =>
    cases f with
    | body tag steps panics =>
      cases steps with
      | cons a steps =>
        obtain ⟨hd, hf, hx⟩ := hs.perform a
        apply Option.Rel.some
        refine ⟨hd, ?_, ha⟩
        rw [hf]
        exact .append _ (.answering tag hx (.same _ hbelow))
      | nil =>
        apply Option.Rel.some
        cases panics with
        | false => exact ⟨hs, hbelow, ha⟩
        | true => exact Machines.unwind ⟨hs, hbelow, ha⟩
    | answering tag a => exact .some ⟨hs.emit rfl, hbelow, ha⟩
    | notifying lsn => exact .some ⟨hs, hbelow, ha⟩
    | delivering o rest position total =>
      cases rest with
      | nil => exact .some ⟨hs, hbelow, ha⟩
      | cons l rest => exact .some ((hs.hear l o).machines (.same _ hbelow) ha)
    | batch lsn round rest taken =>
      cases rest with
      | cons w rest => exact .some ((hs.start w lsn (.batch round)).machines (.same _ hbelow) ha)
      | nil =>
        have hrest := hs.rest lsn taken
        -- whether another round is due does not depend on what is read
        obtain ⟨hr, hh⟩ := hs
        simp only [Machine.step]
        split
        · exact .some ⟨hrest, hbelow, rfl⟩
        · rename_i w late hl
          have hlate : b.Alike { s with late := [] } { s with
              metrics := { s.metrics with regressions := _ }, history := _, late := [] } :=
            .intro hr hh
          exact .some ((hlate.start w lsn (.batch (round + 1))).machines (.same _ hbelow) ha)
    | withdrawing x => exact .some ⟨hs.withdraw x, hbelow, ha⟩
    | discarding rest =>
      simp only [Machine.step]
      generalize s.notify = n at hn
      generalize s'.notify = n' at hn
      cases hn with
      | some hb => exact .some (hb.machines (.same _ hbelow) ha)
      | none =>
        cases rest with
        | nil => exact .some ⟨hs, hbelow, ha⟩
        | cons w rest => exact .some ((hs.discard w).machines (.same _ hbelow) ha)

theorem Machines.halts (h : b.Machines m m') (hn : m.step = none) : m'.step = none := by
  have hs := h.step
  rw [hn] at hs
  generalize m'.step = k at hs
  cases hs
  rfl

theorem Machines.moves (h : b.Machines m m') {k : Machine} (hn : m.step = some k) :
    ∃ k', m'.step = some k' ∧ b.Machines k k' := by
  have hs := h.step
  rw [hn] at hs
  generalize m'.step = k' at hs
  cases hs with
  | some hk => exact ⟨_, rfl, hk⟩

theorem Machines.run (h : b.Machines m m') : b.Machines m.run m'.run := Machine.run_rel Machines.step h

/-- Lists alike answer a call alike, and stay alike. -/
theorem Alike.call (h : b.Alike s s') (c : Call) :
    b.Alike (s.call c).1 (s'.call c).1 ∧ b.answer (s.call c).2 = b.answer (s'.call c).2 := by
  obtain ⟨hd, hf, ha⟩ := h.begin c
  have hm : b.Machines ⟨(s.begin c).1, (s.begin c).2.1, (s.begin c).2.2⟩
      ⟨(s'.begin c).1, (s'.begin c).2.1, (s'.begin c).2.2⟩ := ⟨hd, hf ▸ .refl _, ha⟩
  exact ⟨hm.run.state, hm.run.answer⟩

end Reading
end ReplicaRouting.WaitList
