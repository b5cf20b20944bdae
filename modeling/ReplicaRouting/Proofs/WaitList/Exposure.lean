import Mathlib.Data.List.Nodup
import ReplicaRouting.Proofs.WaitList.Past
/-!
Cancellations with any handle. A handle is a key that every list will take, so the owner of a list, or one of its
callbacks, may cancel with a handle that another list gave. What is found in that way can be the waiter of an awaited
result, which no handle of the list itself leads to. Then the result is abandoned, and its listeners run before the
cancellation comes back.
-/

namespace ReplicaRouting.WaitList

open Relation (ReflTransGen)

namespace Book
variable {v : Book}

theorem Kept.note (h : v.Kept) {e : Entry} (hs : e.settled? = none) (hh : e.heard? = none)
    (hl : ∀ serial cell, e ≠ .listening serial cell) : (v.note e).Kept := by
  refine ⟨?_, ?_, ?_⟩
  · exact h.named.of_subset (List.Subset.refl _) ⟨rfl, rfl, rfl, rfl⟩
  · refine h.settled.of_eq ?_ (.refl _) rfl
    simp [Book.note, settledIn_singleton, hs]
  · refine h.attended.of_eq ?_ rfl rfl fun _ _ hm => mem_listening hm hl
    simp [told, Book.note, heardIn_singleton, hh]

end Book

namespace State
variable {s : State} {h : Handle} {w : Waiter}

theorem filter_isFor (hn : (s.waiters.map (·.ticket)).Nodup) (hw : w ∈ s.waiters) (hf : w.isFor h = true) :
    ∃ before after, s.waiters = before ++ w :: after ∧
      (s.waiters.filter fun w => !w.isFor h) = before ++ after := by
  obtain ⟨before, after, hsplit⟩ := List.append_of_mem hw
  refine ⟨before, after, hsplit, ?_⟩
  rw [hsplit, List.map_append, List.map_cons] at hn
  have ht : w.ticket ∉ (before ++ after).map (·.ticket) := by
    rw [List.map_append]
    exact (List.nodup_cons.mp (List.nodup_middle.mp hn)).1
  have hother : ∀ v ∈ before ++ after, (!v.isFor h) = true := by
    intro v hv
    rw [Bool.not_eq_true', Bool.eq_false_iff]
    intro hvf
    refine ht (List.mem_map.mpr ⟨v, hv, ?_⟩)
    rw [(Waiter.isFor_iff.mp hvf).2, (Waiter.isFor_iff.mp hf).2]
  rw [hsplit, List.filter_append, List.filter_cons_of_neg (by simp [hf]), ← List.filter_append,
    List.filter_eq_self.mpr hother]

/-- The waiter that a cancellation finds leaves the book, and its result is settled if it has one. -/
theorem kept_cancel {ws : List Waiter} {ls : List (Listener × Result.Outcome Lsn)} (hk : (s.book ws ls).Kept)
    (hn : (s.waiters.map (·.ticket)).Nodup) (h : Handle) :
    ((s.cancel h).1.book ws ((s.cancel h).2.1.flatMap Frame.audience ++ ls)).Kept := by
  obtain ⟨-, hc⟩ | ⟨w, hw, hf, hc⟩ := s.cancel_cases h
  · rw [hc]
    exact hk.note rfl rfl nofun
  · obtain ⟨before, after, hsplit, hkept⟩ := filter_isFor hn hw hf
    have hp : ((s.book ws ls).note (.cancelled h true)).unstarted.Perm
        (w :: ((s.remove h).book ws ls).unstarted) := by
      show (ws ++ (s.waiters ++ (s.late ++ s.queue.map (·.1)))).Perm
        (w :: (ws ++ ((s.waiters.filter fun w => !w.isFor h) ++ (s.late ++ s.queue.map (·.1)))))
      rw [hkept, hsplit, List.append_assoc before, List.cons_append, List.append_assoc before]
      exact (List.perm_middle.append_left ws).trans List.perm_middle
    have hfirst := (hk.note (e := .cancelled h true) rfl rfl nofun).moves (.single (.reorder hp))
    obtain ⟨⟨tag, steps, panics, hscript⟩, hc⟩ | ⟨cell, hcell, hc⟩ := hc
    · rw [hc]
      have hgone := hfirst.moves (.single (.discard rfl (by rw [hscript]; rfl)))
      exact hgone.note (e := .logged _) rfl rfl nofun
    · rw [hc, List.flatMap_append]
      have hgone := hfirst.moves (.single (.abandon rfl hcell))
      have hsettle := (s.remove h).book_settle ws ls cell (.failed (.router .abandoned))
      rw [show List.flatMap Frame.audience [Frame.withdrawing h] = [] from rfl, List.append_nil, hsettle]
      exact hgone

end State

namespace Machine

/-- A cancellation with any handle, on top of what is under way. -/
def cancelling (m : Machine) (h : Handle) : Machine :=
  ⟨(m.state.cancel h).1, (m.state.cancel h).2.1 ++ m.stack, m.answer⟩

/-- It is for the owner of the list to act, or for a script. -/
def AtTurn (m : Machine) : Prop :=
  m.stack = [] ∨ ∃ tag steps panics below, m.stack = .body tag steps panics :: below

/-- The next moment of a list on which any handle is used. -/
inductive Exposed (m : Machine) : Machine → Prop
  | next {m' : Machine} (h : m.Next m') : Exposed m m'
  | cancel (h : Handle) (hd : m.state.dropped = false) (ht : m.AtTurn) : Exposed m (m.cancelling h)

variable {initial : Lsn} {metrics : Metrics} {m m' : Machine}

theorem exposed_of_moments (h : ReflTransGen Next m m') : ReflTransGen Exposed m m' :=
  h.lift id fun _ _ hn => .next hn

theorem Exposed.dropped (h : m.Exposed m') (hd : m'.state.dropped = false) : m.state.dropped = false := by
  cases h with
  | next h =>
    rcases h.dropped with he | ⟨-, rfl⟩
    · exact he.symm.trans hd
    · exact absurd (m.state.dropped_drop.symm.trans hd) (by decide)
  | cancel h hm ht => exact hm

theorem Exposed.history (h : m.Exposed m') : ∃ new, m'.state.history = m.state.history ++ new := by
  cases h with
  | next h => exact h.history
  | cancel h hd ht =>
    obtain ⟨new, hn, -⟩ := ((State.Steady.refl m.state).cancel h).history
    exact ⟨new, hn⟩

theorem exposed_history (h : ReflTransGen Exposed m m') :
    ∃ new, m'.state.history = m.state.history ++ new := by
  induction h with
  | refl => exact ⟨[], (List.append_nil _).symm⟩
  | tail _ h ih =>
    obtain ⟨old, ho⟩ := ih
    obtain ⟨new, hn⟩ := h.history
    exact ⟨old ++ new, by rw [hn, ho, List.append_assoc]⟩

theorem Live.cancelling (hl : m.Live initial) (h : Handle) : (m.cancelling h).Live initial := by
  have hi := m.state.cancel_isInner h
  have hs := (State.Steady.refl m.state).cancel h
  have hledger : (m.cancelling h).ledger = m.ledger.cancel h :=
    (ledger_push hi).trans (m.state.ledger_cancel _ h)
  refine hl.turns ⟨hs.dropped.trans hl.sound.live, ?_⟩ (.single (.move (hledger ▸ .cancel h)))
  show Stacked (m.state.cancel h).1.latest _
  rw [show (m.state.cancel h).1.latest = m.state.latest from congrArg Ledger.latest hledger]
  exact hl.sound.stacked.append hi

theorem exposed_live (h : ReflTransGen Exposed (opened initial metrics) m) (hd : m.state.dropped = false) :
    m.Live initial := by
  induction h with
  | refl => exact moments_live .refl hd
  | @tail m₁ m₂ _ h ih =>
    have hl := ih (h.dropped hd)
    cases h with
    | next h => exact hl.next h hd
    | cancel h _ ht => exact hl.cancelling h

theorem exposed_kept (h : ReflTransGen Exposed (opened initial metrics) m) :
    Sheltered m.stack ∧ m.book.Kept := by
  induction h with
  | refl => exact moments_kept .refl
  | @tail m₁ m₂ hm h ih =>
    obtain ⟨hs, hk⟩ := ih
    cases h with
    | next h =>
      obtain ⟨hs', hb⟩ := h.book hs hk.named
      exact ⟨hs', hk.moves hb⟩
    | cancel h hd ht =>
      have hi := m₁.state.cancel_isInner h
      refine ⟨hs.push_inner ?_ hi, ?_⟩
      · rcases ht with ht | ⟨tag, steps, panics, below, ht⟩ <;> rw [ht]
        · nofun
        · exact forall_head rfl
      · rw [cancelling, book_push hi]
        exact State.kept_cancel hk (exposed_live hm hd).balanced.nodup_waiters h

/-! ### On lists with another past -/

section Since
variable {past past' : List Entry} {k : Machine}

theorem cancelling_since (past : List Entry) (m : Machine) (h : Handle) :
    (m.since past).cancelling h = (m.cancelling h).since past := by
  rw [cancelling, show (m.since past).state = m.state.since past from rfl, State.cancel_since]
  rfl

theorem Exposed.since (h : m.Exposed m') (past : List Entry) : (m.since past).Exposed (m'.since past) := by
  cases h with
  | next h => exact .next (h.since past)
  | cancel h hd ht => exact cancelling_since past m h ▸ .cancel h hd ht

theorem Exposed.of_since (h : (m.since past).Exposed m') : ∃ k, m' = k.since past ∧ m.Exposed k := by
  cases h with
  | next h =>
    obtain ⟨k, hk, hn⟩ := h.of_since
    exact ⟨k, hk, .next hn⟩
  | cancel h hd ht => exact ⟨_, cancelling_since past m h, .cancel h hd ht⟩

theorem exposed_of_since (h : ReflTransGen Exposed (m.since past) m') :
    ∃ k, m' = k.since past ∧ ReflTransGen Exposed m k := by
  induction h with
  | refl => exact ⟨m, rfl, .refl⟩
  | tail _ h ih =>
    obtain ⟨k, rfl, hk⟩ := ih
    obtain ⟨k', rfl, hk'⟩ := h.of_since
    exact ⟨k', rfl, hk.tail hk'⟩

theorem SameSince.exposed (h : SameSince past past' m m') (hk : ReflTransGen Exposed m k) :
    ∃ k', ReflTransGen Exposed m' k' ∧ SameSince past past' k k' := by
  obtain ⟨t, rfl, rfl⟩ := h
  obtain ⟨u, rfl, hu⟩ := exposed_of_since hk
  exact ⟨u.since past', hu.lift (since past') fun _ _ hn => hn.since past', u, rfl, rfl⟩

end Since

/-! ### The return of a cancellation -/

section Return
variable {s : State} {fs below : List Frame} {f : Frame} {answer : Answer}

/-- Callbacks and listeners leave the frames below alone, where a panic does not get past the first of these. -/
theorem step_over (hf : ∀ g ∈ fs, g.isInner) (hne : fs ≠ []) (hr : f.panicRecord?.isSome)
    (h : step ⟨s, fs ++ f :: below, answer⟩ = some m') :
    ∃ s' fs', (∀ g ∈ fs', g.isInner) ∧ m' = ⟨s', fs' ++ f :: below, answer⟩ := by
  obtain _ | ⟨g, fs⟩ := fs
  · exact absurd rfl hne
  obtain ⟨hg, hfs⟩ := List.forall_mem_cons.mp hf
  cases g with
  | body tag steps panics =>
    cases steps with
    | cons a steps =>
      obtain rfl := Option.some.inj h
      let rest := Frame.answering tag (s.perform a).2.2 :: .body tag steps panics :: fs
      refine ⟨_, (s.perform a).2.1 ++ rest, ?_, by rw [List.append_assoc]; rfl⟩
      refine List.forall_mem_append.mpr ⟨s.perform_isInner a, ?_⟩
      exact List.forall_mem_cons.mpr ⟨rfl, List.forall_mem_cons.mpr ⟨rfl, hfs⟩⟩
    | nil =>
      obtain rfl := Option.some.inj h
      cases panics with
      | false => exact ⟨s, fs, hfs, rfl⟩
      | true =>
        -- the panic is contained above `f`, or by `f` itself
        obtain ⟨r, above, hu, hsub⟩ := unwind_over hr s fs below answer
        exact ⟨s.log r, above, fun g hm => hfs g (hsub hm), hu⟩
  | answering tag a =>
    obtain rfl := Option.some.inj h
    exact ⟨_, fs, hfs, rfl⟩
  | delivering o ls position total =>
    cases ls with
    | nil =>
      obtain rfl := Option.some.inj h
      exact ⟨s, fs, hfs, rfl⟩
    | cons l ls =>
      obtain rfl := Option.some.inj h
      refine ⟨_, .body l.tag l.steps l.panics :: .delivering o ls (position + 1) total :: fs, ?_, rfl⟩
      exact List.forall_mem_cons.mpr ⟨rfl, List.forall_mem_cons.mpr ⟨rfl, hfs⟩⟩
  | withdrawing x =>
    obtain rfl := Option.some.inj h
    exact ⟨_, fs, hfs, rfl⟩
  | batch | notifying | discarding => cases hg

theorem returns_to (s : State) (below : List Frame) (answer : Answer) (hf : ∀ g ∈ fs, g.isInner)
    (hr : f.panicRecord?.isSome) :
    ∃ t, ReflTransGen Step ⟨s, fs ++ f :: below, answer⟩ ⟨t, f :: below, answer⟩ := by
  generalize hm : (⟨s, fs ++ f :: below, answer⟩ : Machine) = m
  induction m using Machine.run.induct generalizing s fs with
  | case1 m h =>
    subst hm
    exact absurd (idle_of_step h).1 (by simp)
  | case2 m m' h ih =>
    subst hm
    by_cases hne : fs = []
    · exact ⟨s, hne ▸ .refl⟩
    · obtain ⟨s', fs', hf', rfl⟩ := step_over hf hne hr h
      obtain ⟨t, ht⟩ := ih s' hf' rfl
      exact ⟨t, .head h ht⟩

/-- The listeners of a settled result run in their order, whatever they do and whichever of them panics. -/
theorem delivers (o : Result.Outcome Lsn) (ls : List Listener) (position total : Nat) (s : State)
    (below : List Frame) (answer : Answer) :
    ∃ t new, ReflTransGen Step ⟨s, .delivering o ls position total :: below, answer⟩ ⟨t, below, answer⟩ ∧
      t.history = s.history ++ new ∧ (ls.map fun l => .heard l.serial l.tag o).Sublist new := by
  induction ls generalizing s position with
  | nil => exact ⟨s, [], .single rfl, (List.append_nil _).symm, List.Sublist.refl _⟩
  | cons l ls ih =>
    let next : Frame := .delivering o ls (position + 1) total
    have hi : ∀ g ∈ (s.hear l o).2, g.isInner := List.forall_mem_singleton.mpr rfl
    obtain ⟨t, ht⟩ := returns_to (s.hear l o).1 below answer (f := next) hi rfl
    obtain ⟨said, hsaid⟩ := moments_history (moments_of_steps ht)
    obtain ⟨u, new, hu, hnew, hsub⟩ := ih (position + 1) t
    refine ⟨u, .heard l.serial l.tag o :: said ++ new, .head rfl (ht.trans hu), ?_, ?_⟩
    · replace hsaid : t.history = (s.history ++ [.heard l.serial l.tag o]) ++ said := hsaid
      rw [hnew, hsaid, List.append_assoc, List.append_assoc]
      rfl
    · exact (hsub.trans (List.sublist_append_right ..)).cons_cons _

end Return

end Machine
end ReplicaRouting.WaitList
