import ReplicaRouting.Proofs.WaitList.Settlement
import ReplicaRouting.Proofs.WaitList.Transcript
/-!
The moments of a list's life. Its owner makes calls between the callbacks, whatever is left in the queue of
the notifier; only an advance waits for the notifier to have run it all.
-/

namespace ReplicaRouting.WaitList

open Relation (ReflTransGen)

namespace Machine

/-- The next moment: a step of what is under way, or a call with nothing on the stack. -/
inductive Next (m : Machine) : Machine → Prop
  | step {m' : Machine} (h : m.step = some m') : Next m m'
  | call (c : Call) (hs : m.stack = []) (hq : ∀ lsn, c = .advance lsn → m.state.queue = []) :
      Next m (m.state.begun c)

def opened (initial : Lsn) (metrics : Metrics) : Machine := ⟨.opened initial metrics, [], .nothing⟩

variable {initial : Lsn} {metrics : Metrics} {m m' m'' : Machine}

theorem Next.book (h : m.Next m') (hs : Sheltered m.stack) (hn : m.book.Named) :
    Sheltered m'.stack ∧ ReflTransGen Book.Move m.book m'.book := by
  cases h with
  | step h => exact step_book hs hn.scripted h
  | call c hempty hq =>
    rw [Machine.book, hempty]
    exact State.begun_book hn.scripted c

theorem moments_book (hs : Sheltered m.stack) (hn : m.book.Named) (h : ReflTransGen Next m m') :
    Sheltered m'.stack ∧ ReflTransGen Book.Move m.book m'.book := by
  induction h with
  | refl => exact ⟨hs, .refl⟩
  | tail _ h ih =>
    obtain ⟨hs', hb⟩ := h.book ih.1 (hn.moves ih.2)
    exact ⟨hs', ih.2.trans hb⟩

theorem opened_kept (initial : Lsn) (metrics : Metrics) : (opened initial metrics).book.Kept :=
  ⟨⟨nofun, nofun, nofun, nofun⟩, ⟨.refl _, nofun, nofun⟩, ⟨.refl _, nofun⟩⟩

theorem moments_kept (h : ReflTransGen Next (opened initial metrics) m) :
    Sheltered m.stack ∧ m.book.Kept := by
  obtain ⟨hs, hb⟩ := moments_book .empty (opened_kept initial metrics).named h
  exact ⟨hs, (opened_kept initial metrics).moves hb⟩

/-! ### Cancellations by name -/

theorem moments_scripted (h : ReflTransGen Next (opened initial metrics) m) : m.state.Scripted :=
  (moments_kept h).2.named.scripted

end Machine

def Frame.isWithdrawing : Frame → Bool
  | .withdrawing _ => true
  | _ => false

namespace State
variable (s : State)

theorem settle_unwithdrawn (cell : Nat) (o : Result.Outcome Lsn) :
    ∀ f ∈ (s.settle cell o).2, f.isWithdrawing = false := by
  unfold settle
  dsimp only
  split
  · exact List.forall_mem_singleton.mpr rfl
  · exact List.forall_mem_nil _

theorem start_unwithdrawn (w : Waiter) (lsn : Lsn) (place : Place) :
    ∀ f ∈ (s.start w lsn place).2, f.isWithdrawing = false := by
  unfold start
  split
  · exact List.forall_mem_singleton.mpr rfl
  · exact settle_unwithdrawn _ _ _

theorem notify_unwithdrawn {s : State} {begun : State × List Frame} (h : s.notify = some begun) :
    ∀ f ∈ begun.2, f.isWithdrawing = false := by
  obtain ⟨w, lsn, queue, -, rfl⟩ := notify_eq_some h
  exact List.forall_mem_append.mpr ⟨start_unwithdrawn _ w lsn _, List.forall_mem_singleton.mpr rfl⟩

theorem discard_unwithdrawn (w : Waiter) : ∀ f ∈ (s.discard w).2, f.isWithdrawing = false := by
  unfold discard
  split
  · exact List.forall_mem_nil _
  · exact settle_unwithdrawn _ _ _

theorem perform_unwithdrawn {s : State} (hs : s.Scripted) (a : Action) :
    ∀ f ∈ (s.perform a).2.1, f.isWithdrawing = false := by
  cases a with
  | cancel tag =>
    simp only [perform]
    split
    · exact List.forall_mem_nil _
    · split
      · exact List.forall_mem_nil _
      · rename_i hh
        dsimp only
        rw [hs.cancel_frames hh]
        exact List.forall_mem_nil _
  | listen name tag steps panics =>
    simp only [perform]
    split
    · exact List.forall_mem_nil _
    · unfold listen
      dsimp only
      split
      · exact List.forall_mem_nil _
      · exact List.forall_mem_nil _
      · exact List.forall_mem_singleton.mpr rfl
  | register | await | poll | handle | latest | pending | metrics | describe | misread =>
    simp only [perform]
    repeat' split
    all_goals exact List.forall_mem_nil _

end State

namespace Machine
variable {initial : Lsn} {metrics : Metrics} {m m' m'' : Machine}

/-- No cancellation by name waits for a callback to go. -/
theorem Next.unwithdrawn (h : m.Next m') (hs : m.state.Scripted) (hw : ∀ f ∈ m.stack, f.isWithdrawing = false) :
    ∀ f ∈ m'.stack, f.isWithdrawing = false := by
  cases h with
  | call c hempty hq =>
    cases c with
    | act a => exact State.perform_unwithdrawn hs a
    | advance lsn =>
      unfold State.begun State.begin State.advance
      dsimp only
      repeat' split
      · exact List.forall_mem_nil _
      · exact List.forall_mem_nil _
      · exact List.forall_mem_singleton.mpr rfl
    | drop =>
      unfold State.begun State.begin State.drop
      dsimp only
      split
      · exact List.forall_mem_nil _
      · exact List.forall_mem_singleton.mpr rfl
  | step h =>
    have hbelow {f : Frame} {below : List Frame} (hf : ∀ g ∈ f :: below, g.isWithdrawing = false) :
        ∀ g ∈ below, g.isWithdrawing = false := (List.forall_mem_cons.mp hf).2
    cases step_goes h with
    | notify hn => exact State.notify_unwithdrawn hn
    | perform =>
      refine List.forall_mem_append.mpr ⟨State.perform_unwithdrawn hs _, ?_⟩
      exact List.forall_mem_cons.mpr ⟨rfl, List.forall_mem_cons.mpr ⟨rfl, hbelow hw⟩⟩
    -- unwinding takes frames away and adds none
    | @panic s tag below answer =>
      unfold unwind
      split
      · exact List.forall_mem_nil _
      · rename_i hc
        exact fun f hf => hbelow hw f (caught_subset hc hf)
    | finish | answer | rest | notified | delivered | withdraw | swept => exact hbelow hw
    | start | round =>
      refine List.forall_mem_append.mpr ⟨State.start_unwithdrawn _ _ _ _, ?_⟩
      exact List.forall_mem_cons.mpr ⟨rfl, hbelow hw⟩
    | hear => exact List.forall_mem_cons.mpr ⟨rfl, List.forall_mem_cons.mpr ⟨rfl, hbelow hw⟩⟩
    | sweep hn => exact List.forall_mem_append.mpr ⟨State.notify_unwithdrawn hn, hw⟩
    | discard =>
      refine List.forall_mem_append.mpr ⟨State.discard_unwithdrawn _ _, ?_⟩
      exact List.forall_mem_cons.mpr ⟨rfl, hbelow hw⟩

theorem moments_unwithdrawn (h : ReflTransGen Next (opened initial metrics) m) :
    ∀ f ∈ m.stack, f.isWithdrawing = false := by
  induction h with
  | refl => exact List.forall_mem_nil _
  | tail hm h ih => exact h.unwithdrawn (moments_scripted hm) ih

/-! ### The history of a list and its end -/

theorem begin_history (s : State) (c : Call) : ∃ new, (s.begin c).1.history = s.history ++ new := by
  cases c with
  | act a =>
    obtain ⟨new, hn, -⟩ := ((State.Steady.refl s).perform a).history
    exact ⟨new, hn⟩
  | advance lsn =>
    unfold State.begin State.advance
    dsimp only
    repeat' split
    · exact ⟨[], (List.append_nil _).symm⟩
    · exact ⟨_, rfl⟩
    · exact ⟨_, rfl⟩
  | drop =>
    unfold State.begin State.drop
    dsimp only
    split <;> exact ⟨[], (List.append_nil _).symm⟩

theorem Next.history (h : m.Next m') : ∃ new, m'.state.history = m.state.history ++ new := by
  cases h with
  | step h =>
    obtain ⟨new, hn, -⟩ := (step_steady h).history
    exact ⟨new, hn⟩
  | call c hs hq => exact begin_history m.state c

theorem moments_history (h : ReflTransGen Next m m') :
    ∃ new, m'.state.history = m.state.history ++ new := by
  induction h with
  | refl => exact ⟨[], (List.append_nil _).symm⟩
  | tail _ h ih =>
    obtain ⟨old, ho⟩ := ih
    obtain ⟨new, hn⟩ := h.history
    exact ⟨old ++ new, by rw [hn, ho, List.append_assoc]⟩

theorem begin_live {s : State} {c : Call} (hc : c ≠ .drop) : (s.begin c).1.dropped = s.dropped := by
  cases c with
  | act a => exact ((State.Steady.refl s).perform a).dropped
  | advance lsn =>
    unfold State.begin State.advance
    dsimp only
    repeat' split
    all_goals rfl
  | drop => exact absurd rfl hc

theorem Next.dropped (h : m.Next m') :
    m'.state.dropped = m.state.dropped ∨ m.stack = [] ∧ m' = m.state.begun .drop := by
  cases h with
  | step h => exact .inl (step_steady h).dropped
  | call c hs hq =>
    by_cases hc : c = .drop
    · exact .inr ⟨hs, hc ▸ rfl⟩
    · exact .inl (begin_live hc)

/-- A list that was dropped after a moment in its use was dropped at one moment in between. -/
theorem moments_drop (h : ReflTransGen Next m m') (hl : m.state.dropped = false)
    (hd : m'.state.dropped = true) :
    ∃ last, ReflTransGen Next m last ∧ last.state.dropped = false ∧ last.stack = [] ∧
      ReflTransGen Next (last.state.begun .drop) m' := by
  induction h with
  | refl => exact absurd (hl.symm.trans hd) (by decide)
  | @tail m₁ m₂ hs h ih =>
    by_cases hd₁ : m₁.state.dropped = true
    · obtain ⟨last, hlast, hlive, hempty, hend⟩ := ih hd₁
      exact ⟨last, hlast, hlive, hempty, hend.tail h⟩
    · have hlive := Bool.eq_false_iff.mpr hd₁
      rcases h.dropped with he | ⟨hempty, rfl⟩
      · exact absurd (hlive.symm.trans (he.symm.trans hd)) (by decide)
      · exact ⟨m₁, hs, hlive, hempty, .refl⟩

/-! ### While the list is in use -/

structure Live (initial : Lsn) (m : Machine) : Prop where
  sound : m.Sound
  balanced : m.ledger.Balanced initial
  phased : m.ledger.Phased

theorem Live.turns (hl : m.Live initial) (hs : m'.Sound)
    (h : ReflTransGen Ledger.Turn m.ledger m'.ledger) : m'.Live initial := by
  obtain ⟨hb, hp⟩ := Ledger.balanced_turns hl.balanced hl.phased h
  exact ⟨hs, hb, hp⟩

theorem Live.next (hl : m.Live initial) (h : m.Next m') (hd : m'.state.dropped = false) :
    m'.Live initial := by
  cases h with
  | step h =>
    rcases step_moves hl.sound h with ⟨hs, hr⟩ | hf
    · exact hl.turns (hl.sound.of_moves hr hs) (Ledger.turns_of_moves hr)
    · obtain ⟨hs, ht⟩ := hf.turn hl.sound
      exact hl.turns hs (.single ht)
  | call c hempty hq =>
    have hledger : m.ledger = m.state.ledger none := by rw [ledger, hempty]; rfl
    have ht : (m.state.begun c).Sound ∧
        ReflTransGen Ledger.Turn (m.state.ledger none) (m.state.begun c).ledger := by
      cases c with
      | act a => exact State.begun_act hl.sound.live a
      | advance lsn => exact State.begun_turns ⟨hl.sound.live, hq lsn rfl⟩ (by simp)
      | drop => exact absurd (m.state.dropped_drop.symm.trans hd) (by decide)
    exact hl.turns ht.1 (hledger ▸ ht.2)

theorem moments_live (h : ReflTransGen Next (opened initial metrics) m)
    (hd : m.state.dropped = false) : m.Live initial := by
  induction h with
  | refl =>
    obtain ⟨hb, hp⟩ := State.opened_balanced initial metrics
    exact ⟨⟨rfl, .empty⟩, hb, hp⟩
  | @tail m₁ m₂ _ h ih =>
    have hl : m₁.state.dropped = false := by
      rcases h.dropped with he | ⟨-, rfl⟩
      · exact he.symm.trans hd
      · exact absurd (m₁.state.dropped_drop.symm.trans hd) (by decide)
    exact (ih hl).next h hd

theorem Live.late (hl : m.Live initial) (hs : m.stack = []) :
    m.state.late = [] := by
  apply hl.phased.late
  have hf : m.state.advancing = (batchOf m.stack).isSome := hl.phased.flag
  rw [hs] at hf
  exact hf

/-! ### Actions -/

/-- An action is performed: the owner makes it, or it is the turn of a script. -/
inductive Performs (m : Machine) (a : Action) : Machine → Prop
  | call (h : m.stack = []) : Performs m a (m.state.begun (.act a))
  | turn {tag : String} {steps : List Action} {panics : Bool} {below : List Frame}
    (h : m.stack = .body tag (a :: steps) panics :: below) :
      Performs m a ⟨(m.state.perform a).1, (m.state.perform a).2.1 ++
        .answering tag (m.state.perform a).2.2 :: .body tag steps panics :: below, m.answer⟩

theorem Performs.next {a : Action} (h : m.Performs a m') : m.Next m' := by
  cases h with
  | call h => exact .call (.act a) h nofun
  | turn h =>
    apply Next.step
    rw [step, h]

theorem Performs.state {a : Action} (h : m.Performs a m') : m'.state = (m.state.perform a).1 := by
  cases h with
  | call | turn => rfl

/-! ### Whole calls -/

theorem moments_of_steps (h : ReflTransGen Step m m') : ReflTransGen Next m m' := by
  induction h with
  | refl => exact .refl
  | tail _ h ih => exact ih.tail (.step h)

theorem run_moments (m : Machine) : ReflTransGen Next m m.run := moments_of_steps (run_steps m)

theorem call_moments {s : State} (hq : s.queue = []) (c : Call) (answer : Answer) :
    ReflTransGen Next ⟨s, [], answer⟩ ⟨(s.call c).1, [], (s.call c).2⟩ := by
  have hrun := run_moments (s.begun c)
  have hempty : (s.begun c).run.stack = [] := (idle_of_step (step_run _)).1
  have he : (s.begun c).run = ⟨(s.call c).1, [], (s.call c).2⟩ := by
    rw [← hempty]
    rfl
  rw [he] at hrun
  exact ReflTransGen.head (.call c rfl fun _ _ => hq) hrun

theorem calls_moments {s : State} (hq : s.queue = []) (cs : List Call) (answer : Answer) :
    ∃ last, ReflTransGen Next ⟨s, [], answer⟩ ⟨(s.calls cs).1, [], last⟩ := by
  induction cs generalizing s answer with
  | nil => exact ⟨answer, .refl⟩
  | cons c cs ih =>
    obtain ⟨last, h⟩ := ih (s.queue_call c) (s.call c).2
    exact ⟨last, (call_moments hq c answer).trans h⟩

end Machine
end ReplicaRouting.WaitList
