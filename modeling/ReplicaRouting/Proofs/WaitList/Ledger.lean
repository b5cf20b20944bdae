import ReplicaRouting.Proofs.WaitList.Steady
import ReplicaRouting.Proofs.WaitList.Trace
/-!
The ledger of a wait list: its waiters, where they are kept, and the trace so far. Scripts, handles and
awaited results are left out. A step of a run makes moves on the ledger, or it ends the advance.
-/

namespace ReplicaRouting.WaitList

open Relation (ReflTransGen)

structure Ledger where
  latest : Lsn
  tickets : Nat
  waiters : List Waiter
  advancing : Bool
  dropped : Bool
  /-- Within an advance: its waiters still to start, and how many it has taken so far. -/
  batch : Option (List Waiter × Nat)
  late : List Waiter
  queue : List (Waiter × Lsn)
  trace : List Entry

def State.ledger (s : State) (batch : Option (List Waiter × Nat)) : Ledger :=
  ⟨s.latest, s.tickets, s.waiters, s.advancing, s.dropped, batch, s.late, s.queue, s.trace⟩

namespace Ledger

def note (v : Ledger) (e : Entry) : Ledger := { v with trace := v.trace ++ [e] }

def register (v : Ledger) (target : Lsn) (callback : Callback) : Ledger :=
  let w : Waiter := ⟨target, v.tickets, callback⟩
  { v with
    tickets := v.tickets + 1
    waiters := if v.latest < target then insertWaiter w v.waiters else v.waiters
    late := if ¬ v.latest < target ∧ v.advancing then v.late ++ [w] else v.late
    queue :=
      if ¬ v.latest < target ∧ ¬ v.advancing then v.queue ++ [(w, v.latest)] else v.queue }.note
    (.registered v.tickets target)

def cancel (v : Ledger) (h : Handle) : Ledger :=
  { v with waiters := v.waiters.filter fun w => !w.isFor h }.note
    (.cancelled h (v.waiters.any (·.isFor h)))

def advance (v : Ledger) (lsn : Lsn) : Ledger :=
  let due := v.waiters.filter fun w => w.target ≤ lsn
  { v with
    latest := lsn
    advancing := true
    waiters := v.waiters.filter fun w => !decide (w.target ≤ lsn)
    batch := some (due, due.length) }.note (.recorded lsn)

def finish (v : Ledger) : Ledger := { v with batch := none, advancing := false }

/-- What callbacks and the work on what is due do to a ledger. -/
inductive Move (v : Ledger) : Ledger → Prop
  | register (target : Lsn) (callback : Callback) : Move v (v.register target callback)
  | cancel (h : Handle) : Move v (v.cancel h)
  | start {w : Waiter} {rest : List Waiter} {taken : Nat} (tag : Option String) (round : Nat)
      (hb : v.batch = some (w :: rest, taken)) :
      Move v ({ v with batch := some (rest, taken) }.note
        (.started w.ticket tag v.latest (.batch round)))
  | round {taken : Nat} (hb : v.batch = some ([], taken)) (hl : v.late ≠ []) :
      Move v { v with batch := some (v.late, taken + v.late.length), late := [] }
  | notify {w : Waiter} {lsn : Lsn} {queue : List (Waiter × Lsn)} (tag : Option String)
      (hb : v.batch = none) (hq : v.queue = (w, lsn) :: queue) :
      Move v ({ v with queue := queue }.note (.started w.ticket tag lsn .notifier))

/-- A move, the end of an advance with nothing left to start, or the begin of one on a list at rest. -/
inductive Turn (v : Ledger) : Ledger → Prop
  | move {v' : Ledger} (h : Move v v') : Turn v v'
  | finish {taken : Nat} (hb : v.batch = some ([], taken)) (hl : v.late = []) : Turn v v.finish
  | advance {lsn : Lsn} (hb : v.batch = none) (hq : v.queue = []) (h : v.latest ≤ lsn) :
      Turn v (v.advance lsn)

structure Frame (v v' : Ledger) : Prop where
  latest : v'.latest = v.latest
  dropped : v'.dropped = v.dropped
  batch : v'.batch.isSome = v.batch.isSome

theorem Move.frame {v v' : Ledger} (h : Move v v') : v.Frame v' := by
  cases h with
  | register | cancel | notify => exact ⟨rfl, rfl, rfl⟩
  | start tag round hb | round hb hl => exact ⟨rfl, rfl, by rw [hb]; rfl⟩

theorem moves_frame {v v' : Ledger} (h : ReflTransGen Move v v') : v.Frame v' := by
  induction h with
  | refl => exact ⟨rfl, rfl, rfl⟩
  | tail _ h ih =>
    have hf := h.frame
    exact ⟨hf.latest.trans ih.latest, hf.dropped.trans ih.dropped, hf.batch.trans ih.batch⟩

theorem turns_of_moves {v v' : Ledger} (h : ReflTransGen Move v v') : ReflTransGen Turn v v' := by
  induction h with
  | refl => exact .refl
  | tail _ h ih => exact ih.tail (.move h)

end Ledger

/-! ### What the operations of a list do to its ledger -/

def Frame.isInner : Frame → Bool
  | .body .. | .answering .. | .delivering .. | .withdrawing _ => true
  | _ => false

namespace State
variable (s : State) (k : Option (List Waiter × Nat))

theorem ledger_emit_mark {e : Entry} (h : e.isMark = true) :
    (s.emit e).ledger k = (s.ledger k).note e := by
  simp [ledger, Ledger.note, emit, trace, h]

theorem ledger_emit_quiet {e : Entry} (h : e.isMark = false) :
    (s.emit e).ledger k = s.ledger k := by
  simp [ledger, emit, trace, h]

@[simp] theorem ledger_log (r : Log.Record) : (s.log r).ledger k = s.ledger k :=
  s.ledger_emit_quiet k rfl

theorem ledger_settle (cell : Nat) (o : Result.Outcome Lsn) :
    (s.settle cell o).1.ledger k = s.ledger k := by
  have h := s.ledger_emit_quiet k (e := .settled cell o) rfl
  unfold settle
  dsimp only
  split
  · exact h
  · exact h

theorem settle_isInner (cell : Nat) (o : Result.Outcome Lsn) :
    ∀ f ∈ (s.settle cell o).2, f.isInner := by
  unfold settle
  dsimp only
  split <;> simp [Frame.isInner]

theorem ledger_start (w : Waiter) (lsn : Lsn) (place : Place) :
    ∃ tag, (s.start w lsn place).1.ledger k =
      (s.ledger k).note (.started w.ticket tag lsn place) := by
  obtain ⟨target, ticket, callback⟩ := w
  cases callback with
  | script tag steps panics => exact ⟨some tag, s.ledger_emit_mark k rfl⟩
  | settle cell => exact ⟨none, (ledger_settle ..).trans (s.ledger_emit_mark k rfl)⟩

theorem start_isInner (w : Waiter) (lsn : Lsn) (place : Place) :
    ∀ f ∈ (s.start w lsn place).2, f.isInner := by
  obtain ⟨target, ticket, callback⟩ := w
  cases callback with
  | script tag steps panics => simp [start, Frame.isInner]
  | settle cell => exact settle_isInner _ cell _

theorem ledger_listen (cell : Nat) (tag : String) (steps : List Action) (panics : Bool) :
    (s.listen cell tag steps panics).1.ledger k = s.ledger k := by
  have h := ({ s with listeners := s.listeners + 1 } : State).ledger_emit_quiet k
    (e := .listening s.listeners cell) rfl
  unfold listen
  dsimp only
  split
  · exact h
  · exact h
  · exact (ledger_emit_quiet _ k rfl).trans h

theorem listen_isInner (cell : Nat) (tag : String) (steps : List Action) (panics : Bool) :
    ∀ f ∈ (s.listen cell tag steps panics).2, f.isInner := by
  unfold listen
  dsimp only
  split <;> simp [hear, Frame.isInner]

theorem ledger_accept (w : Waiter) :
    (s.accept w).ledger k =
      { s.ledger k with
        waiters := if s.latest < w.target then insertWaiter w s.waiters else s.waiters
        late := if ¬ s.latest < w.target ∧ s.advancing then s.late ++ [w] else s.late
        queue :=
          if ¬ s.latest < w.target ∧
            ¬ s.advancing then s.queue ++ [(w, s.latest)] else s.queue } := by
  by_cases h : s.latest < w.target
  · simp [accept, ledger, trace, h]
  · by_cases ha : s.advancing = true <;> simp [accept, ledger, trace, h, ha]

theorem ledger_register (target : Lsn) (callback : Callback) :
    (s.register target callback).1.ledger k = (s.ledger k).register target callback := by
  have h := ({ s with tickets := s.tickets + 1 } : State).ledger_emit_mark k
    (e := .registered s.tickets target) rfl
  refine (ledger_accept _ k _).trans ?_
  rw [h]
  rfl

theorem ledger_withdraw (h : Handle) : (s.withdraw h).ledger k = s.ledger k := ledger_log _ k _

theorem ledger_cancel (h : Handle) : (s.cancel h).1.ledger k = (s.ledger k).cancel h := by
  obtain ⟨hw, hc⟩ | ⟨w, hw, hf, hc⟩ := s.cancel_cases h
  · have hany : s.waiters.any (·.isFor h) = false :=
      List.any_eq_false.mpr fun w hm => Bool.eq_false_iff.mp (hw w hm)
    have hkept : s.waiters.filter (fun w => !w.isFor h) = s.waiters :=
      List.filter_eq_self.mpr fun w hm => by rw [hw w hm, Bool.not_false]
    rw [hc, ledger_emit_mark _ k rfl]
    simp only [Ledger.cancel, ledger, hany, hkept]
  · have hany : s.waiters.any (·.isFor h) = true := List.any_eq_true.mpr ⟨w, hw, hf⟩
    have hremove : (s.remove h).ledger k = (s.ledger k).cancel h := by
      refine (ledger_emit_mark _ k rfl).trans ?_
      simp only [Ledger.cancel, ledger, hany]
      rfl
    obtain ⟨-, hc⟩ | ⟨cell, -, hc⟩ := hc
    · rw [hc, ledger_withdraw, hremove]
    · rw [hc, ledger_settle, hremove]

theorem cancel_isInner (h : Handle) : ∀ f ∈ (s.cancel h).2.1, f.isInner := by
  obtain ⟨-, hc⟩ | ⟨w, -, -, ⟨-, hc⟩ | ⟨cell, -, hc⟩⟩ := s.cancel_cases h <;> rw [hc]
  · exact List.forall_mem_nil _
  · exact List.forall_mem_nil _
  · exact List.forall_mem_append.mpr ⟨settle_isInner _ cell _, List.forall_mem_singleton.mpr rfl⟩

theorem ledger_rest (lsn : Lsn) (fired : Nat) :
    (s.rest lsn fired).ledger none = (s.ledger k).finish :=
  ledger_log _ none _

/-- The actions of callers and callbacks register and cancel, and do nothing else to the ledger. -/
theorem ledger_perform (a : Action) :
    ReflTransGen Ledger.Move (s.ledger k) ((s.perform a).1.ledger k) := by
  cases a with
  | register tag target steps panics =>
    simp only [perform]
    split
    · exact .refl
    · refine .single ?_
      have h := s.ledger_register k target (.script tag steps panics)
      exact h ▸ .register target _
  | await name target =>
    simp only [perform]
    split
    · exact .refl
    · refine .single ?_
      have h := ({ s with
        cells := s.cells ++ [⟨none, []⟩]
        results := s.results.bind name s.cells.length } : State).ledger_register k target
          (.settle s.cells.length)
      exact h ▸ .register target _
  | cancel tag =>
    simp only [perform]
    split
    · exact .refl
    · split
      · exact .refl
      · rename_i h _
        exact .single (s.ledger_cancel k h ▸ .cancel h)
  | listen name tag steps panics =>
    simp only [perform]
    split
    · exact .refl
    · rename_i cell _
      rw [ledger_listen]
  | poll | handle | latest | pending | metrics | describe | misread =>
    simp only [perform]
    repeat' split
    all_goals exact .refl

theorem perform_isInner (a : Action) : ∀ f ∈ (s.perform a).2.1, f.isInner := by
  cases a with
  | listen name tag steps panics =>
    simp only [perform]
    split
    · simp
    · rename_i cell _
      exact s.listen_isInner cell tag steps panics
  | cancel tag =>
    simp only [perform]
    repeat' split
    · exact List.forall_mem_nil _
    · exact List.forall_mem_nil _
    · apply cancel_isInner
  | register | await | poll | handle | latest | pending | metrics | describe | misread =>
    simp only [perform]
    repeat' split
    all_goals simp

end State

/-! ### What a step of a run does to it -/

/-- The innermost advance on a stack: its waiters still to start, and how many it has taken. -/
def batchOf : List Frame → Option (List Waiter × Nat)
  | [] => none
  | .batch _ _ rest taken :: _ => some (rest, taken)
  | _ :: below => batchOf below

theorem batchOf_cons {f : Frame} (h : f.isInner) (below : List Frame) :
    batchOf (f :: below) = batchOf below := by
  cases f <;> first | rfl | cases h

theorem batchOf_append {fs : List Frame} (h : ∀ f ∈ fs, f.isInner) (below : List Frame) :
    batchOf (fs ++ below) = batchOf below := by
  induction fs with
  | nil => rfl
  | cons f fs ih =>
    rw [List.cons_append, batchOf_cons (h f (List.mem_cons_self ..))]
    exact ih fun g hg => h g (List.mem_cons_of_mem _ hg)

/-- Callbacks and listeners run on top of nothing, of the notifier or of one advance. -/
inductive Stacked (latest : Lsn) : List Frame → Prop
  | empty : Stacked latest []
  | notifying (lsn : Lsn) : Stacked latest [.notifying lsn]
  | batch (round : Nat) (rest : List Waiter) (taken : Nat) :
    Stacked latest [.batch latest round rest taken]
  | inner {f : Frame} {below : List Frame} (hf : f.isInner) (h : Stacked latest below) :
      Stacked latest (f :: below)

theorem Stacked.append {latest : Lsn} {fs below : List Frame} (hf : ∀ f ∈ fs, f.isInner)
    (h : Stacked latest below) : Stacked latest (fs ++ below) := by
  induction fs with
  | nil => exact h
  | cons f fs ih =>
    exact .inner (hf f (List.mem_cons_self ..)) (ih fun g hg => hf g (List.mem_cons_of_mem _ hg))

theorem Stacked.of_inner {latest : Lsn} {fs : List Frame} (hf : ∀ f ∈ fs, f.isInner) :
    Stacked latest fs :=
  List.append_nil fs ▸ .append hf .empty

/-- A panic never leaves an advance. -/
theorem Stacked.caught {latest : Lsn} {fs : List Frame} (h : Stacked latest fs) :
    match caught? Frame.panicRecord? fs with
    | none => batchOf fs = none
    | some (_, below) => Stacked latest below ∧ batchOf below = batchOf fs := by
  induction h with
  | empty => rfl
  | notifying lsn => exact ⟨.notifying lsn, rfl⟩
  | batch round rest taken => exact ⟨.batch round rest taken, rfl⟩
  | @inner f below hf h ih =>
    cases f with
    | body | answering | withdrawing => exact ih
    | delivering => exact ⟨.inner rfl h, rfl⟩
    | batch | notifying | discarding => cases hf

namespace Machine

def ledger (m : Machine) : Ledger := m.state.ledger (batchOf m.stack)

structure Sound (m : Machine) : Prop where
  live : m.state.dropped = false
  stacked : Stacked m.state.latest m.stack

theorem Sound.of_moves {m m' : Machine} (hm : m.Sound)
    (h : ReflTransGen Ledger.Move m.ledger m'.ledger)
    (hs : Stacked m.state.latest m'.stack) : m'.Sound := by
  have hf := Ledger.moves_frame h
  have hl : m'.state.latest = m.state.latest := hf.latest
  exact ⟨hf.dropped.trans hm.live, hl ▸ hs⟩

theorem unwind_moves {m : Machine} (h : Stacked m.state.latest m.stack) :
    m.unwind.ledger = m.ledger ∧ Stacked m.state.latest m.unwind.stack := by
  have hc := h.caught
  unfold unwind ledger
  split
  · rename_i hn
    rw [hn] at hc
    exact ⟨by rw [hc]; rfl, .empty⟩
  · rename_i r below hn
    rw [hn] at hc
    exact ⟨by rw [State.ledger_log, hc.2], hc.1⟩

theorem ledger_push {s : State} {fs below : List Frame} {answer : Answer}
    (h : ∀ f ∈ fs, f.isInner) :
    ledger ⟨s, fs ++ below, answer⟩ = s.ledger (batchOf below) :=
      congrArg s.ledger (batchOf_append h below)

def Finishes (m m' : Machine) : Prop :=
  ∃ round taken, m.stack = [.batch m.state.latest round [] taken] ∧ m.state.late = [] ∧
    m' = ⟨m.state.rest m.state.latest taken, [], .count taken⟩

theorem step_moves {m m' : Machine} (hm : m.Sound) (h : m.step = some m') :
    (Stacked m.state.latest m'.stack ∧ ReflTransGen Ledger.Move m.ledger m'.ledger) ∨
      m.Finishes m' := by
  obtain ⟨s, stack, answer⟩ := m
  have hs : Stacked s.latest stack := hm.stacked
  cases hs with
  | empty =>
    cases step_goes h with
    | notify hn =>
      obtain ⟨w, lsn, queue, hq, rfl⟩ := State.notify_eq_some hn
      have hi := { s with queue := queue }.start_isInner w lsn .notifier
      obtain ⟨tag, ht⟩ := { s with queue := queue }.ledger_start none w lsn .notifier
      refine .inl ⟨.append hi (.notifying lsn), .single ?_⟩
      rw [ledger_push hi]
      exact ht ▸ .notify tag rfl hq
  | notifying lsn =>
    obtain rfl := Option.some.inj h
    exact .inl ⟨.empty, .refl⟩
  | batch round rest taken =>
    cases rest with
    | cons w rest =>
      obtain rfl := Option.some.inj h
      have hi := s.start_isInner w s.latest (.batch round)
      obtain ⟨tag, ht⟩ := s.ledger_start (some (rest, taken)) w s.latest (.batch round)
      refine .inl ⟨.append hi (.batch round rest taken), .single ?_⟩
      rw [ledger_push hi]
      exact ht ▸ .start tag round rfl
    | nil =>
      cases step_goes h with
      | rest hl => exact .inr ⟨round, taken, rfl, hl, rfl⟩
      | @round _ _ _ _ w late _ _ hl =>
        -- the late waiters become the batch, and the first of them starts
        have hi := { s with late := [] }.start_isInner w s.latest (.batch (round + 1))
        obtain ⟨tag, ht⟩ :=
          { s with late := [] }.ledger_start (some (late, taken + late.length + 1)) w
          s.latest (.batch (round + 1))
        have hn : s.late ≠ [] := by rw [hl]; exact List.cons_ne_nil w late
        refine .inl ⟨.append hi (.batch _ _ _), .tail (.single (.round rfl hn)) ?_⟩
        rw [ledger_push hi]
        refine ht ▸ .start tag (round + 1) ?_
        show some (s.late, taken + s.late.length) = some (w :: late, taken + late.length + 1)
        rw [hl, List.length_cons, Nat.add_assoc]
  | @inner f below hf hs =>
    cases f with
    | body tag steps panics =>
      cases steps with
      | cons a steps =>
        obtain rfl := Option.some.inj h
        have hi := s.perform_isInner a
        refine .inl ⟨.append hi (.inner rfl (.inner rfl hs)), ?_⟩
        rw [ledger_push hi]
        exact s.ledger_perform (batchOf below) a
      | nil =>
        obtain rfl := Option.some.inj h
        split
        · obtain ⟨hl, hs⟩ := unwind_moves (m := ⟨s, below, answer⟩) hs
          exact .inl ⟨hs, hl ▸ .refl⟩
        · exact .inl ⟨hs, .refl⟩
    | answering tag answer =>
      obtain rfl := Option.some.inj h
      refine .inl ⟨hs, ?_⟩
      show ReflTransGen _ _ (State.ledger (s.emit _) _)
      rw [State.ledger_emit_quiet _ _ rfl]
      exact .refl
    | delivering o rest position total =>
      cases rest with
      | nil =>
        obtain rfl := Option.some.inj h
        exact .inl ⟨hs, .refl⟩
      | cons l rest =>
        obtain rfl := Option.some.inj h
        refine .inl ⟨.inner rfl (.inner rfl hs), ?_⟩
        show ReflTransGen _ _ (State.ledger (s.emit _) _)
        rw [State.ledger_emit_quiet _ _ rfl]
        exact .refl
    | withdrawing x =>
      obtain rfl := Option.some.inj h
      refine .inl ⟨hs, ?_⟩
      show ReflTransGen _ _ (State.ledger (s.withdraw x) _)
      rw [State.ledger_withdraw]
      exact .refl
    | batch | notifying | discarding => cases hf

theorem Finishes.turn {m m' : Machine} (hm : m.Sound) (h : m.Finishes m') :
    m'.Sound ∧ Ledger.Turn m.ledger m'.ledger := by
  obtain ⟨round, taken, hs, hl, rfl⟩ := h
  refine ⟨⟨hm.live, .empty⟩, ?_⟩
  have hb : m.ledger.batch = some ([], taken) := by rw [ledger, hs]; rfl
  have he : ledger ⟨m.state.rest m.state.latest taken, [], .count taken⟩ = m.ledger.finish :=
    m.state.ledger_rest _ _ _
  rw [he]
  exact .finish hb hl

theorem run_at_rest {s : State} {answer : Answer} (hq : s.queue = []) :
    run ⟨s, [], answer⟩ = ⟨s, [], answer⟩ := by
  have h : step ⟨s, [], answer⟩ = none := by
    unfold step State.notify
    dsimp only
    rw [hq]
  rw [run, h]

theorem run_moves (m : Machine) (hm : m.Sound) (hb : batchOf m.stack = none) :
    m.run.Sound ∧ ReflTransGen Ledger.Move m.ledger m.run.ledger ∧ m.run.stack = [] ∧
      m.run.state.queue = [] := by
  induction m using Machine.run.induct with
  | case1 m h =>
    rw [run, h]
    exact ⟨hm, .refl, idle_of_step h⟩
  | case2 m m' h ih =>
    rcases step_moves hm h with ⟨hs, hr⟩ | ⟨_, _, hs, _⟩
    · -- no move opens an advance
      have hb' : batchOf m'.stack = none := by
        have hf : (batchOf m'.stack).isSome = (batchOf m.stack).isSome :=
          (Ledger.moves_frame hr).batch
        rw [hb] at hf
        exact Option.not_isSome_iff_eq_none.mp (by rw [hf]; exact Bool.false_ne_true)
      obtain ⟨hs', hr', he⟩ := ih (hm.of_moves hr hs) hb'
      rw [run, h]
      exact ⟨hs', hr.trans hr', he⟩
    · rw [hs] at hb
      cases hb

/-- Within an advance it makes moves up to the last step of the advance. -/
theorem run_advance (m : Machine) (hm : m.Sound) (hb : (batchOf m.stack).isSome) :
    ∃ last rest : Machine, last.Sound ∧ ReflTransGen Ledger.Move m.ledger last.ledger ∧
      last.Finishes rest ∧ m.run = rest.run := by
  induction m using Machine.run.induct with
  | case1 m h =>
    rw [(idle_of_step h).1] at hb
    cases hb
  | case2 m m' h ih =>
    have hrun : m.run = m'.run := by rw [run, h]
    rcases step_moves hm h with ⟨hs, hr⟩ | hf
    · have hb' : (batchOf m'.stack).isSome := (Ledger.moves_frame hr).batch.trans hb
      obtain ⟨last, rest, hl, hr', hf, he⟩ := ih (hm.of_moves hr hs) hb'
      exact ⟨last, rest, hl, hr.trans hr', hf, hrun.trans he⟩
    · exact ⟨m, m', hm, .refl, hf, hrun⟩

theorem run_turns (m : Machine) (hm : m.Sound) :
    m.run.Sound ∧ ReflTransGen Ledger.Turn m.ledger m.run.ledger ∧ m.run.stack = [] ∧
      m.run.state.queue = [] := by
  by_cases hb : (batchOf m.stack).isSome
  · obtain ⟨last, rest, hl, hr, hf, he⟩ := run_advance m hm hb
    obtain ⟨hs, ht⟩ := hf.turn hl
    have hbr : batchOf rest.stack = none := by
      obtain ⟨_, _, _, _, rfl⟩ := hf
      rfl
    obtain ⟨hs', hr', hend⟩ := run_moves rest hs hbr
    rw [he]
    exact ⟨hs', ((Ledger.turns_of_moves hr).tail ht).trans (Ledger.turns_of_moves hr'), hend⟩
  · obtain ⟨hs, hr, hend⟩ := run_moves m hm (Option.not_isSome_iff_eq_none.mp hb)
    exact ⟨hs, Ledger.turns_of_moves hr, hend⟩

end Machine

/-! ### Whole runs -/

namespace State

structure AtRest (s : State) : Prop where
  live : s.dropped = false
  queue : s.queue = []

def begun (s : State) (c : Call) : Machine := ⟨(s.begin c).1, (s.begin c).2.1, (s.begin c).2.2⟩

theorem begun_refused {s : State} (hs : s.AtRest) {lsn : Lsn} (h : lsn < s.latest) :
    (s.begun (.advance lsn)).Sound ∧ (s.begun (.advance lsn)).ledger = s.ledger none := by
  have hd : ¬ s.dropped = true := by rw [hs.live]; exact Bool.false_ne_true
  dsimp only [begun, begin, advance]
  rw [if_neg hd, if_pos h]
  exact ⟨⟨hs.live, .empty⟩, ledger_log _ none _⟩

theorem begun_advance {s : State} (hs : s.AtRest) {lsn : Lsn} (h : s.latest ≤ lsn) :
    let due := s.waiters.filter fun w => w.target ≤ lsn
    (s.begun (.advance lsn)).Sound ∧ (s.begun (.advance lsn)).ledger = (s.ledger none).advance lsn ∧
      (s.begun (.advance lsn)).stack = [.batch lsn 0 due due.length] := by
  have hd : ¬ s.dropped = true := by rw [hs.live]; exact Bool.false_ne_true
  have hl : ¬ lsn < s.latest := h
  dsimp only [begun, begin, advance]
  rw [if_neg hd, if_neg hl]
  exact ⟨⟨hs.live, .batch 0 _ _⟩, ledger_emit_mark _ _ rfl, rfl⟩

theorem begun_act {s : State} (hd : s.dropped = false) (a : Action) :
    (s.begun (.act a)).Sound ∧
      ReflTransGen Ledger.Turn (s.ledger none) (s.begun (.act a)).ledger := by
  have hi := s.perform_isInner a
  have hm := s.ledger_perform none a
  refine ⟨⟨(Ledger.moves_frame hm).dropped.trans hd, .of_inner hi⟩, Ledger.turns_of_moves ?_⟩
  have hb : batchOf (s.perform a).2.1 = none :=
    List.append_nil (s.perform a).2.1 ▸ batchOf_append hi []
  show ReflTransGen _ _ ((s.perform a).1.ledger (batchOf (s.perform a).2.1))
  rwa [hb]

theorem begun_turns {s : State} (hs : s.AtRest) {c : Call} (hc : c ≠ .drop) :
    (s.begun c).Sound ∧ ReflTransGen Ledger.Turn (s.ledger none) (s.begun c).ledger := by
  cases c with
  | act a => exact begun_act hs.live a
  | advance lsn =>
    by_cases h : lsn < s.latest
    · obtain ⟨hm, hl⟩ := begun_refused hs h
      exact ⟨hm, hl ▸ .refl⟩
    · obtain ⟨hm, hl, -⟩ := begun_advance hs h
      exact ⟨hm, hl ▸ .single (.advance rfl hs.queue h)⟩
  | drop => exact absurd rfl hc

theorem call_turns {s : State} (hs : s.AtRest) {c : Call} (hc : c ≠ .drop) :
    (s.call c).1.AtRest ∧ ReflTransGen Ledger.Turn (s.ledger none) ((s.call c).1.ledger none) := by
  obtain ⟨hm, hb⟩ := begun_turns hs hc
  obtain ⟨hr, ht, he, hq⟩ := Machine.run_turns _ hm
  refine ⟨⟨hr.live, hq⟩, hb.trans ?_⟩
  rwa [Machine.ledger, Machine.ledger, he] at ht

theorem calls_turns {s : State} (hs : s.AtRest) {cs : List Call} (hc : .drop ∉ cs) :
    (s.calls cs).1.AtRest ∧
      ReflTransGen Ledger.Turn (s.ledger none) ((s.calls cs).1.ledger none) := by
  induction cs generalizing s with
  | nil => exact ⟨hs, .refl⟩
  | cons c cs ih =>
    obtain ⟨h, ht⟩ := call_turns hs fun he => hc (he ▸ List.mem_cons_self ..)
    obtain ⟨hr, hts⟩ := ih h fun hm => hc (List.mem_cons_of_mem _ hm)
    exact ⟨hr, ht.trans hts⟩

end State
end ReplicaRouting.WaitList
