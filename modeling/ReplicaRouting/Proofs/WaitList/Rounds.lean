import ReplicaRouting.Proofs.WaitList.Nesting
import ReplicaRouting.Proofs.WaitList.Order
import ReplicaRouting.Proofs.WaitList.Past
/-!
How long an advance goes on. Each late round runs what was registered in the round before it, one level deeper in the
scripts that the advance began with. So there are no more of these rounds than levels, and after the last one nothing
is left that the advance has reached.
-/

namespace ReplicaRouting.WaitList

open Relation (ReflTransGen)

/-! ### An advance under way -/

/-- Of the entries since an advance began, with so many waiters of its round still to start, so many late and so many
taken: each waiter that was due or has arrived was started or is one of them. -/
structure Outset.Counts (b : Outset) (rest late taken : Nat) (es : List Entry) : Prop where
  rounds : ∀ r ∈ lateRoundsIn es, r ≤ b.depth
  started : (startedIn es).length + rest + late = b.due + (arrivedBy b.lsn es).length
  taken : taken = (startedIn es).length + rest

section Counts
variable {b : Outset} {rest late taken : Nat} {es : List Entry}

theorem Outset.Counts.concat (h : b.Counts rest late taken es) {e : Entry} {rest' late' : Nat}
    (hr : ∀ r ∈ e.lateRound?, r ≤ b.depth) (hs : rest = rest' + e.started?.toList.length)
    (ha : late' = late + (e.arrived? b.lsn).toList.length) : b.Counts rest' late' taken (es ++ [e]) := by
  have hstarted := h.started
  have htaken := h.taken
  refine ⟨?_, ?_, ?_⟩
  · rw [lateRoundsIn_concat]
    exact List.forall_mem_append.mpr ⟨h.rounds, fun r hm => hr r (Option.mem_toList.mp hm)⟩
  · rw [startedIn_append, startedIn_singleton, arrivedBy_concat, List.length_append, List.length_append]
    omega
  · rw [startedIn_append, startedIn_singleton, List.length_append]
    omega

theorem Outset.Counts.quiet (h : b.Counts rest late taken es) {e : Entry} (hs : e.started? = none)
    (ha : e.arrived? b.lsn = none) : b.Counts rest late taken (es ++ [e]) := by
  refine h.concat ?_ ?_ ?_
  · rw [lateRound?_of_quiet hs]
    nofun
  · rw [hs]
    rfl
  · rw [ha]
    rfl

end Counts

/-- Within an advance, in this round, with these waiters of the round still to start. They fit into this round and the
late into the next. -/
structure State.Underway (b : Outset) (round : Nat) (rest : List Waiter) (taken : Nat) (s : State) : Prop where
  latest : s.latest = b.lsn
  advancing : s.advancing = true
  queue : s.queue = b.queue
  ahead : ∀ w ∈ s.waiters, b.lsn < w.target
  unstarted : ∀ w ∈ rest, b.Covers s.cells round w
  late : ∀ w ∈ s.late, b.Covers s.cells (round + 1) w
  cells : b.cells ≤ s.cells.length
  results : ∀ name cell, s.results.find? name = some cell → b.cells ≤ cell → name ∈ b.awaited
  counts : b.Counts rest.length s.late.length taken s.history

namespace State
variable {b : Outset} {round taken : Nat} {rest : List Waiter} {s : State}

theorem Underway.emit (h : s.Underway b round rest taken) {e : Entry} (hs : e.started? = none)
    (ha : e.arrived? b.lsn = none) : (s.emit e).Underway b round rest taken :=
  { h with counts := h.counts.quiet hs ha }

theorem Underway.log (h : s.Underway b round rest taken) (r : Log.Record) :
    (s.log r).Underway b round rest taken := h.emit rfl rfl

theorem Underway.with_cells (h : s.Underway b round rest taken) {cells : List Cell}
    (hl : b.cells ≤ cells.length)
    (hc : ∀ k, k = round ∨ k = round + 1 → ∀ cell, (0 < k → b.cells ≤ cell) → b.Heard s.cells k cell →
      b.Heard cells k cell) : ({ s with cells } : State).Underway b round rest taken :=
  { h with
    unstarted := fun w hw => (h.unstarted w hw).with_cells (hc round (.inl rfl))
    late := fun w hw => (h.late w hw).with_cells (hc (round + 1) (.inr rfl))
    cells := hl }

theorem Underway.settle (h : s.Underway b round rest taken) {cell : Nat} (hc : b.Heard s.cells round cell)
    (o : Result.Outcome Lsn) :
    (s.settle cell o).1.Underway b round rest taken ∧ ∀ f ∈ (s.settle cell o).2, b.Runs round f := by
  have he : (s.emit (.settled cell o)).Underway b round rest taken := h.emit rfl rfl
  unfold State.settle
  dsimp only
  split
  · rename_i listeners hcell
    refine ⟨he.with_cells ?_ ?_, List.forall_mem_singleton.mpr (hc _ hcell)⟩
    · rw [List.length_set]
      exact h.cells
    · exact fun k _ other _ hk => hk.set fun _ => List.forall_mem_nil _
  · exact ⟨he, List.forall_mem_nil _⟩

theorem Underway.hear (h : s.Underway b round rest taken) {l : Listener} (hl : ∀ a ∈ l.steps, b.Fits round a)
    (o : Result.Outcome Lsn) :
    (s.hear l o).1.Underway b round rest taken ∧ ∀ f ∈ (s.hear l o).2, b.Runs round f :=
  ⟨h.emit rfl rfl, List.forall_mem_singleton.mpr hl⟩

theorem Underway.start {w : Waiter} (h : s.Underway b round (w :: rest) taken) :
    (s.start w b.lsn (.batch round)).1.Underway b round rest taken ∧
      ∀ f ∈ (s.start w b.lsn (.batch round)).2, b.Runs round f := by
  have hw := h.unstarted w (List.mem_cons_self ..)
  have hs : ∀ tag, (s.emit (.started w.ticket tag b.lsn (.batch round))).Underway b round rest taken := by
    intro tag
    refine { h with
      unstarted := fun v hv => h.unstarted v (List.mem_cons_of_mem _ hv)
      counts := h.counts.concat ?_ rfl rfl }
    cases round with
    | zero => nofun
    | succ round =>
      rintro r ⟨⟩
      exact hw.within
  obtain ⟨target, ticket, callback⟩ := w
  cases callback with
  | script tag steps panics =>
    exact ⟨hs (some tag), List.forall_mem_singleton.mpr (hw.script tag steps panics rfl)⟩
  | settle cell => exact (hs none).settle (hw.settle cell rfl) _

theorem Underway.register (h : s.Underway b round rest taken) (target : Lsn) {callback : Callback}
    (hw : b.Covers s.cells (round + 1) ⟨target, s.tickets, callback⟩) :
    (s.register target callback).1.Underway b round rest taken := by
  dsimp only [State.register, State.accept, State.emit]
  rw [h.latest]
  by_cases hl : b.lsn < target
  · have hn : ¬ target ≤ b.lsn := Lsn.not_le.mpr hl
    rw [if_pos hl]
    refine { h with latest := rfl, ahead := fun v hv => ?_, counts := h.counts.quiet rfl (if_neg hn) }
    rcases List.mem_cons.mp ((perm_insertWaiter ..).mem_iff.mp hv) with rfl | hv
    · exact hl
    · exact h.ahead v hv
  · have hn : target ≤ b.lsn := Lsn.not_lt.mp hl
    rw [if_neg hl, if_pos h.advancing]
    refine { h with latest := rfl, late := ?_, counts := h.counts.concat nofun rfl ?_ }
    · exact List.forall_mem_append.mpr ⟨h.late, List.forall_mem_singleton.mpr hw⟩
    · rw [Entry.arrived?, if_pos hn]
      exact List.length_append

theorem Underway.cancel (h : s.Underway b round rest taken) (hs : s.Scripted) {tag : String} {x : Handle}
    (hx : s.handles.find? tag = some x) :
    (s.cancel x).1.Underway b round rest taken ∧ ∀ f ∈ (s.cancel x).2.1, b.Runs round f := by
  obtain hc | hc := hs.cancel_cases hx <;> rw [hc]
  · exact ⟨h.emit rfl rfl, List.forall_mem_nil _⟩
  · have hw : ({ s with waiters := s.waiters.filter fun w => !w.isFor x } : State).Underway b round rest taken :=
      { h with ahead := fun w hm => h.ahead w (List.mem_filter.mp hm).1 }
    have hr : (s.remove x).Underway b round rest taken := hw.emit rfl rfl
    have hm : ({ s.remove x with metrics := (s.remove x).metrics.countCancelled } : State).Underway b round rest
        taken := { hr with }
    exact ⟨hm.log _, List.forall_mem_nil _⟩

/-- A listener hears at once what is settled. A result of the outset may still be settled in this round, one that was
awaited meanwhile also in the next. -/
theorem Underway.listen (h : s.Underway b round rest taken) {cell : Nat} (tag : String) {steps : List Action}
    (hs : ∀ a ∈ steps, b.Fits round a) (hn : b.cells ≤ cell → ∀ a ∈ steps, b.Fits (round + 1) a)
    (panics : Bool) :
    (s.listen cell tag steps panics).1.Underway b round rest taken ∧
      ∀ f ∈ (s.listen cell tag steps panics).2, b.Runs round f := by
  let l : Listener := ⟨s.listeners, tag, steps, panics⟩
  have hm : ({ s with listeners := s.listeners + 1 } : State).Underway b round rest taken := { h with }
  have he : (State.emit { s with listeners := s.listeners + 1 } (.listening s.listeners cell)).Underway b
      round rest taken := hm.emit rfl rfl
  unfold State.listen
  dsimp only
  split
  · exact ⟨he, List.forall_mem_nil _⟩
  · rename_i listeners hcell
    refine ⟨he.with_cells ?_ ?_, List.forall_mem_nil _⟩
    · rw [List.length_set]
      exact h.cells
    · intro k hk other hnew hheard
      refine hheard.set ?_
      rintro rfl
      -- a result that was there before the advance is not settled in the next round
      have hl : ∀ a ∈ l.steps, b.Fits k a := by
        rcases hk with rfl | rfl
        · exact hs
        · exact hn (hnew (Nat.succ_pos _))
      exact List.forall_mem_append.mpr ⟨hheard _ hcell, List.forall_mem_singleton.mpr hl⟩
  · exact he.hear (l := l) hs _

theorem Underway.await (h : s.Underway b round rest taken) {name : String} (hn : name ∈ b.awaited)
    (hd : round + 1 ≤ b.depth) (target : Lsn) :
    (({ s with
      cells := s.cells ++ [⟨none, []⟩]
      results := s.results.bind name s.cells.length } : State).register target
        (.settle s.cells.length)).1.Underway b round rest taken := by
  have hnone : b.Heard (s.cells ++ [⟨none, []⟩]) (round + 1) s.cells.length := by
    intro c hc
    obtain rfl : ⟨none, []⟩ = c := by simpa using hc
    exact List.forall_mem_nil _
  have hb : ({ s with cells := s.cells ++ [⟨none, []⟩] } : State).Underway b round rest taken := by
    refine h.with_cells ?_ fun k _ cell _ hk => hk.concat
    rw [List.length_append]
    exact Nat.le_add_right_of_le h.cells
  apply Underway.register
  · refine { hb with results := fun other cell hf hle => ?_ }
    rw [Names.find?_bind] at hf
    split at hf
    · rename_i he
      exact he ▸ hn
    · exact h.results other cell hf hle
  · refine ⟨hd, nofun, ?_, ?_⟩
    · rintro cell ⟨⟩
      exact hnone
    · rintro cell ⟨⟩ -
      exact h.cells

theorem Underway.perform (h : s.Underway b round rest taken) (hs : s.Scripted) {a : Action} (ha : b.Fits round a) :
    (s.perform a).1.Underway b round rest taken ∧ ∀ f ∈ (s.perform a).2.1, b.Runs round f := by
  cases a with
  | register tag target steps panics =>
    obtain ⟨hd, hsteps⟩ := ha.register
    have hw : b.Covers s.cells (round + 1) ⟨target, s.tickets, .script tag steps panics⟩ := by
      refine ⟨hd, ?_, nofun, nofun⟩
      rintro tag' steps' panics' ⟨⟩
      exact hsteps
    simp only [State.perform]
    split
    · exact ⟨h, List.forall_mem_nil _⟩
    · exact ⟨{ h.register target hw with }, List.forall_mem_nil _⟩
  | await name target =>
    obtain ⟨hn, hd⟩ := ha.await
    simp only [State.perform]
    split
    · exact ⟨h, List.forall_mem_nil _⟩
    · exact ⟨h.await hn hd target, List.forall_mem_nil _⟩
  | listen name tag steps panics =>
    obtain ⟨hnow, hnext⟩ := ha.listen
    simp only [State.perform]
    split
    · exact ⟨h, List.forall_mem_nil _⟩
    · rename_i cell hcell
      exact h.listen tag hnow (fun hle => hnext (h.results name cell hcell hle)) panics
  | cancel tag =>
    simp only [State.perform]
    split
    · exact ⟨h, List.forall_mem_nil _⟩
    · split
      · exact ⟨h, List.forall_mem_nil _⟩
      · rename_i hx
        exact h.cancel hs hx
  | poll | handle | latest | pending | metrics | describe | misread =>
    simp only [State.perform]
    repeat' split
    all_goals exact ⟨h, List.forall_mem_nil _⟩

theorem Underway.next_round (h : s.Underway b round [] taken) :
    ({ s with late := [] } : State).Underway b (round + 1) s.late (taken + s.late.length) := by
  have hstarted := h.counts.started
  have htaken := h.counts.taken
  rw [List.length_nil] at hstarted htaken
  have hcounts : b.Counts s.late.length 0 (taken + s.late.length) s.history :=
    ⟨h.counts.rounds, hstarted, by omega⟩
  exact { h with unstarted := h.late, late := List.forall_mem_nil _, counts := hcounts }

end State

namespace Machine
variable {b : Outset} {m m' : Machine}

inductive Underway (b : Outset) : Machine → Prop
  | intro {s : State} {round taken : Nat} {rest : List Waiter} {fs : List Frame} {answer : Answer}
      (hs : s.Underway b round rest taken) (hf : ∀ f ∈ fs, b.Runs round f) :
      Underway b ⟨s, fs ++ [.batch b.lsn round rest taken], answer⟩

theorem Underway.push {s : State} {round taken : Nat} {rest : List Waiter} {fs below : List Frame}
    (h : s.Underway b round rest taken ∧ ∀ f ∈ fs, b.Runs round f) (hb : ∀ f ∈ below, b.Runs round f)
    (answer : Answer) : Underway b ⟨s, fs ++ (below ++ [.batch b.lsn round rest taken]), answer⟩ := by
  rw [← List.append_assoc]
  exact .intro h.1 (List.forall_mem_append.mpr ⟨h.2, hb⟩)

/-- The advance goes on, or it is done with its last round. -/
theorem Underway.step (h : m.Underway b) (hscripted : m.state.Scripted) (hs : m.step = some m') :
    m'.Underway b ∨ ∃ (s : State) (round taken : Nat), s.Underway b round [] taken ∧ s.late = [] ∧
      m' = ⟨s.rest b.lsn taken, [], .count taken⟩ := by
  obtain @⟨s, round, taken, rest, fs, answer, h, hf⟩ := h
  cases fs with
  | nil =>
    cases rest with
    | cons w rest =>
      obtain rfl := Option.some.inj hs
      exact .inl (.push h.start (List.forall_mem_nil _) answer)
    | nil =>
      cases step_goes hs with
      | rest hl => exact .inr ⟨s, round, taken, h, hl, rfl⟩
      -- what came late is the next round
      | @round _ _ _ _ w late _ _ hl =>
        have hnext := h.next_round
        rw [hl, List.length_cons, ← Nat.add_assoc] at hnext
        exact .inl (.push hnext.start (List.forall_mem_nil _) answer)
  | cons f fs =>
    obtain ⟨hfront, hfs⟩ := List.forall_mem_cons.mp hf
    have hsame : s.Underway b round rest taken ∧ ∀ f ∈ [], b.Runs round f := ⟨h, List.forall_mem_nil _⟩
    left
    cases f with
    | body tag steps panics =>
      cases steps with
      | cons a steps =>
        obtain rfl := Option.some.inj hs
        obtain ⟨ha, hsteps⟩ := List.forall_mem_cons.mp hfront
        have hbelow : ∀ f ∈ .answering tag (s.perform a).2.2 :: .body tag steps panics :: fs, b.Runs round f :=
          List.forall_mem_cons.mpr ⟨trivial, List.forall_mem_cons.mpr ⟨hsteps, hfs⟩⟩
        exact .push (h.perform hscripted ha) hbelow answer
      | nil =>
        obtain rfl := Option.some.inj hs
        cases panics with
        | false => exact .push hsame hfs answer
        | true =>
          obtain ⟨r, above, hu, hsub⟩ :=
            unwind_over (f := .batch b.lsn round rest taken) rfl s fs [] answer
          rw [if_pos rfl]
          exact hu ▸ .intro (h.log r) fun f hm => hfs f (hsub hm)
    | answering tag a =>
      obtain rfl := Option.some.inj hs
      exact .intro (h.emit rfl rfl) hfs
    | delivering o ls position total =>
      cases ls with
      | nil =>
        obtain rfl := Option.some.inj hs
        exact .push hsame hfs answer
      | cons l ls =>
        obtain rfl := Option.some.inj hs
        obtain ⟨hl, hls⟩ := List.forall_mem_cons.mp hfront
        have hbelow : ∀ f ∈ .delivering o ls (position + 1) total :: fs, b.Runs round f :=
          List.forall_mem_cons.mpr ⟨hls, hfs⟩
        exact .push (h.hear hl o) hbelow answer
    | batch | notifying | withdrawing | discarding => exact hfront.elim

theorem Underway.returns (h : m.Underway b) (hs : Sheltered m.stack) (hn : m.book.Named) :
    ∃ (s : State) (round taken : Nat), s.Underway b round [] taken ∧ s.late = [] ∧
      ReflTransGen Step m ⟨s.rest b.lsn taken, [], .count taken⟩ := by
  induction m using Machine.run.induct with
  | case1 m hstep =>
    obtain ⟨-, -⟩ := h
    exact absurd (idle_of_step hstep).1 (by simp)
  | case2 m m' hstep ih =>
    rcases h.step hn.scripted hstep with hu | ⟨s, round, taken, hs, hl, rfl⟩
    · obtain ⟨hs', hb⟩ := step_book hs hn.scripted hstep
      obtain ⟨s, round, taken, hs, hl, hsteps⟩ := ih hu hs' (hn.moves hb)
      exact ⟨s, round, taken, hs, hl, .head hstep hsteps⟩
    · exact ⟨s, round, taken, hs, hl, .single hstep⟩

end Machine

/-! ### Its beginning and its end -/

def State.outset (s : State) (lsn : Lsn) : Outset :=
  let due := s.waiters.filter fun w => w.target ≤ lsn
  let scripts := due.flatMap (·.scripts s.cells)
  ⟨lsn, s.queue, due.length, s.cells.length, Action.awaitedIn scripts.flatten, nesting scripts⟩

theorem covers_due {s : State} {lsn : Lsn} {w : Waiter} (hw : w ∈ s.waiters.filter fun w => w.target ≤ lsn) :
    (s.outset lsn).Covers s.cells 0 w := by
  let scripts := (s.waiters.filter fun w => w.target ≤ lsn).flatMap (·.scripts s.cells)
  have hfits : ∀ steps ∈ w.scripts s.cells, ∀ a ∈ steps, (s.outset lsn).Fits 0 a := by
    intro steps hs a ha
    have hm : a ∈ scripts.flatten := List.mem_flatten.mpr ⟨steps, List.mem_flatMap.mpr ⟨w, hw, hs⟩, ha⟩
    have hd : a.depth (Action.awaitedIn scripts.flatten) ≤ nesting scripts := depth_le hm
    exact ⟨awaited_subset hm, Nat.le_trans (Nat.le_of_eq (Nat.zero_add _)) hd⟩
  refine ⟨Nat.zero_le _, ?_, ?_, fun _ _ hpos => absurd hpos (Nat.lt_irrefl 0)⟩
  · intro tag steps panics hc
    apply hfits
    rw [Waiter.scripts, hc]
    exact List.mem_singleton_self _
  · intro cell hc c hcell l hl
    apply hfits
    rw [Waiter.scripts, hc]
    dsimp only
    rw [Option.mem_def.mp hcell]
    exact List.mem_map_of_mem hl

namespace Machine
variable {initial : Lsn} {metrics : Metrics} {m : Machine}

theorem begun_underway {s : State} (hd : ¬ s.dropped = true) (hl : s.late = [])
    (hr : ∀ name cell, s.results.find? name = some cell → cell < s.cells.length) {lsn : Lsn}
    (h : s.latest ≤ lsn) :
    ∃ m : Machine, s.begun (.advance lsn) = m.since (s.history ++ [.recorded lsn]) ∧
      m.Underway (s.outset lsn) := by
  let due := s.waiters.filter fun w => w.target ≤ lsn
  let s₀ : State := { s with
    latest := lsn
    advancing := true
    waiters := s.waiters.filter fun w => !decide (w.target ≤ lsn)
    history := [] }
  have hu : s₀.Underway (s.outset lsn) 0 due due.length := by
    refine ⟨rfl, rfl, rfl, ?_, fun w => covers_due, ?_, Nat.le_refl _, ?_, nofun, ?_, ?_⟩
    · intro w hw
      have hn : ¬ w.target ≤ lsn := by simpa using (List.mem_filter.mp hw).2
      exact Lsn.not_le.mp hn
    · rw [show s₀.late = [] from hl]
      exact List.forall_mem_nil _
    · intro name cell hf hle
      exact absurd (hr name cell hf) (Nat.not_lt.mpr hle)
    · rw [show s₀.late = [] from hl]
      exact Nat.zero_add _
    · exact (Nat.zero_add _).symm
  have hb : s.begin (.advance lsn) = _ := State.advance_of_le hd (Lsn.not_lt.mpr h)
  have hsince : s.begun (.advance lsn) =
      since (s.history ++ [.recorded lsn]) ⟨s₀, [] ++ [.batch lsn 0 due due.length], .nothing⟩ := by
    rw [State.begun, hb, Machine.since, State.since, List.append_nil]
    rfl
  exact ⟨_, hsince, .intro hu (List.forall_mem_nil _)⟩

/-- An advance to an accepted position comes back, whatever its callbacks and their listeners do. It starts what was
due and what is registered meanwhile for such a position, in no more late rounds than registrations are nested in the
scripts that it began with. Then nothing is late, and what waits is ahead of it. -/
theorem advance_comes_to_rest (hm : ReflTransGen Next (opened initial metrics) m) (hs : m.stack = [])
    (hd : m.state.dropped = false) {lsn : Lsn} (h : m.state.latest ≤ lsn) :
    let due := m.state.waiters.filter fun w => w.target ≤ lsn
    ∃ (s : State) (new : List Entry),
      ReflTransGen Step (m.state.begun (.advance lsn)) ⟨s, [], .count (startedIn new).length⟩ ∧
      (m.state.queue = [] → m.state.call (.advance lsn) = (s, .count (startedIn new).length)) ∧
      s.history = m.state.history ++ .recorded lsn :: new ∧
      (startedIn new).length = due.length + (arrivedBy lsn new).length ∧
      lateRounds new ≤ nesting (due.flatMap (·.scripts m.state.cells)) ∧
      s.latest = lsn ∧ s.advancing = false ∧ s.late = [] ∧ ∀ w ∈ s.waiters, lsn < w.target := by
  intro due
  have hlive : ¬ m.state.dropped = true := by rw [hd]; exact Bool.false_ne_true
  have hlate := (moments_live hm hd).late hs
  have hnamed : (m.state.book [] []).Named := by
    have hn := (moments_kept hm).2.named
    rwa [Machine.book, hs] at hn
  -- the work is followed on a list without a past, `since` then puts the past back
  obtain ⟨m₀, hb, hunder⟩ := begun_underway hlive hlate hnamed.results h
  obtain ⟨hsheltered, hmoves⟩ := State.begun_book hnamed.scripted (.advance lsn)
  rw [hb] at hsheltered hmoves
  have hn := hnamed.moves hmoves
  obtain ⟨s₀, round, taken, hu, hl, hsteps⟩ :=
    hunder.returns hsheltered ⟨hn.tickets, hn.handles, hn.scripts, hn.results⟩
  let s := (s₀.rest lsn taken).since (m.state.history ++ [.recorded lsn])
  let new := (s₀.rest lsn taken).history
  have hcounts : (m.state.outset lsn).Counts 0 s₀.late.length taken new := hu.counts.quiet rfl rfl
  rw [hl] at hcounts
  have htaken : taken = (startedIn new).length := hcounts.taken
  have hend : ReflTransGen Step (m.state.begun (.advance lsn)) ⟨s, [], .count (startedIn new).length⟩ := by
    rw [hb, ← htaken]
    exact steps_since hsteps _
  refine ⟨s, new, hend, fun hq => ?called, ?history, hcounts.started, lateRounds_le hcounts.rounds, hu.latest,
    rfl, hl, hu.ahead⟩
  case called =>
    have hqueue : s.queue = [] := hu.queue.trans hq
    have hrun := (run_of_steps hend).trans (run_at_rest hqueue)
    exact congrArg (fun m : Machine => (m.state, m.answer)) hrun
  case history =>
    show m.state.history ++ [.recorded lsn] ++ new = _
    rw [List.append_assoc]
    rfl

/-- As many late rounds as levels: in the first a callback that was registered in a callback, in the second the result
that it awaits, in the third what a listener to that registers. A waiter for a later position stays. -/
theorem advance_comes_to_rest_nested :
    let cs : List Call := [
      .act (.register "a" ⟨1, 1⟩ [.register "b" ⟨1, 1⟩ [.await "x" ⟨1, 1⟩,
        .listen "x" "l" [.register "c" ⟨1, 1⟩ [] true] false] true] false),
      .act (.await "y" ⟨1, 1⟩), .act (.listen "y" "k" [.register "d" ⟨1, 1⟩ [] false,
        .register "e" ⟨2, 0⟩ [] false] true)]
    let s := ((State.opened .zero {}).calls cs).1
    let due := s.waiters.filter fun w => w.target ≤ ⟨1, 1⟩
    let done := s.call (.advance ⟨1, 1⟩)
    s.dropped = false ∧ s.latest ≤ ⟨1, 1⟩ ∧ due.map (·.ticket) = [0, 1] ∧
      nesting (due.flatMap (·.scripts s.cells)) = 3 ∧ lateRounds done.1.history = 3 ∧
      done.1.waiters.map (·.ticket) = [4] ∧
      ∃ new, done.1.history = s.history ++ .recorded ⟨1, 1⟩ :: new ∧
        done.2 = .count (startedIn new).length ∧
        (startedIn new).length = 2 + (arrivedBy ⟨1, 1⟩ new).length ∧ lateRounds new ≤ 3 ∧
        done.1.advancing = false ∧ done.1.late = [] ∧ ∀ w ∈ done.1.waiters, ⟨1, 1⟩ < w.target := by
  intro cs s due done
  have hd : s.dropped = false := by decide +kernel
  have hle : s.latest ≤ ⟨1, 1⟩ := by decide +kernel
  have hdue : due.map (·.ticket) = [0, 1] := by decide +kernel
  have hnest : nesting (due.flatMap (·.scripts s.cells)) = 3 := by decide +kernel
  obtain ⟨last, hm⟩ := calls_moments (s := State.opened .zero {}) rfl cs .nothing
  obtain ⟨s', new, -, hcall, hhistory, hcount, hrounds, -, hadv, hlate, hahead⟩ :=
    advance_comes_to_rest hm rfl hd hle
  have hq : s.queue = [] := ((State.opened_ready .zero {}).calls cs).queue
  have hdone : done = (s', .count (startedIn new).length) := hcall hq
  have hlength : due.length = 2 := by simpa using congrArg List.length hdue
  refine ⟨hd, hle, hdue, hnest, by decide +kernel, by decide +kernel, new, ?_⟩
  rw [hdone]
  exact ⟨hhistory, rfl, hlength ▸ hcount, hnest ▸ hrounds, hadv, hlate, hahead⟩

end Machine
end ReplicaRouting.WaitList
