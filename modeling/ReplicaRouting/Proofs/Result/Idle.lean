import ReplicaRouting.Proofs.Result.Ledger
/-!
Deliveries to listeners that run no script. They make no cell and register nobody, and of the pending cells
they settle only those that an adapter leads to.
-/

namespace ReplicaRouting.Result

open Relation (ReflTransGen)

def Listener.IsIdle : Listener V → Prop
  | .script _ steps _ => steps = []
  | _ => True

def Frame.IsIdle : Frame V → Prop
  | .body _ steps _ => steps = []
  | _ => True

namespace Ledger

/-- What an idle delivery may do, from `v` to `v'`. -/
structure Calm (v v' : Ledger V) : Prop where
  extended : v.network.Extends v'.network
  length : v'.network.cells.length = v.network.cells.length
  has : ∀ r, v'.Has r → v.Has r
  kept : ∀ cell, (∀ r, v.Has r → r.listener ≠ .adapter cell) →
    v'.network.outcomeAt cell = v.network.outcomeAt cell

variable {v v' v'' : Ledger V}

theorem Calm.refl (v : Ledger V) : v.Calm v := ⟨.refl _, rfl, fun _ h => h, fun _ _ => rfl⟩

theorem Calm.trans (h : v.Calm v') (h' : v'.Calm v'') : v.Calm v'' := by
  refine ⟨h.extended.trans h'.extended, h'.length.trans h.length, ?_, ?_⟩
  · exact fun r hr => h.has r (h'.has r hr)
  · intro cell hn
    have hn' : ∀ r, v'.Has r → r.listener ≠ .adapter cell := fun r hr => hn r (h.has r hr)
    exact (h'.kept cell hn').trans (h.kept cell hn)

theorem Calm.quiet {n : Network V} (h : v.network.Still n) : v.Calm ⟨n, v.due⟩ := by
  refine ⟨.of_cells h.cells, congrArg List.length h.cells, ?_, ?_⟩
  · rintro r (hr | hr)
    · exact .inl (h.waiting ▸ hr)
    · exact .inr hr
  · exact fun cell _ => Network.outcomeAt_congr h.cells cell

theorem settle_apart (v : Ledger V) (cell : Nat) (o : Outcome V) :
    let v' := v.after (v.network.settle cell o).1 (v.network.settle cell o).2.1
    v'.network.cells.length = v.network.cells.length ∧ (∀ r, v'.Has r → v.Has r) ∧
      ∀ other, other ≠ cell → v'.network.outcomeAt other = v.network.outcomeAt other := by
  refine ⟨?_, fun r => has_settle v cell o, ?_⟩
  · rcases v.network.settle_cases cell o with ⟨context, -, hs⟩ | hs
    · rw [hs]
      exact List.length_set
    · rw [hs]
      rfl
  · intro other hne
    rcases v.network.settle_cases cell o with ⟨context, -, hs⟩ | hs
    · rw [hs]
      exact congrArg (fun c : Option (Cell V) => c.bind (·.outcome)) (List.getElem?_set_ne hne.symm)
    · rw [hs]
      rfl

theorem calm_start {d : Due V} {due : List (Due V)} (h : v.due = d :: due) :
    v.Calm (after ⟨v.network, due⟩ (v.network.start d.registered d.outcome d.context).1
      (v.network.start d.registered d.outcome d.context).2) := by
  have he := v.network.extends_start d.registered d.outcome d.context
  obtain ⟨⟨serial, cell, listener⟩, o, context⟩ := d
  have hm : (⟨⟨serial, cell, listener⟩, o, context⟩ : Due V) ∈ v.due := h ▸ List.mem_cons_self ..
  have hrest : ∀ r, (Ledger.mk v.network due).Has r → v.Has r := by
    rintro r (hr | ⟨d, hd, rfl⟩)
    · exact .inl hr
    · exact .inr ⟨d, h ▸ List.mem_cons_of_mem _ hd, rfl⟩
  cases listener with
  | script | receiver => exact ⟨he, rfl, hrest, fun _ _ => rfl⟩
  | recorder read => cases o <;> exact ⟨he, rfl, hrest, fun _ _ => rfl⟩
  | adapter into =>
    obtain ⟨hl, hh, ho⟩ :=
      settle_apart ⟨v.network.emit (.started serial cell none o context), due⟩ into o.adapt
    -- the cell that is led to is the only one that may change
    refine ⟨he, hl, fun r hr => hrest r (hh r hr), ?_⟩
    intro other hn
    apply ho other
    rintro rfl
    exact hn _ (.inr ⟨_, hm, rfl⟩) rfl

theorem register_calm (n : Network V) (cell : Nat) (l : Listener V) :
    ∃ v : Ledger V, v.network.cells = n.cells ∧ (∀ r, v.Has r → r ∈ n.waiting ∨ r.listener = l) ∧
      v.Calm ⟨(n.register cell l).1, dueOn (n.register cell l).2⟩ := by
  let r : Registered V := ⟨n.registrations, cell, l⟩
  let enrolled := { n with registrations := n.registrations + 1 }.emit (.registered r.serial cell)
  rcases n.register_cases cell l with ⟨-, h⟩ | ⟨o, -, h⟩
  · refine ⟨⟨{ enrolled with waiting := n.waiting ++ [r] }, []⟩, rfl, ?_, ?_⟩
    · rintro x (hx | ⟨d, hd, -⟩)
      · rcases List.mem_append.mp hx with hx | hx
        · exact .inl hx
        · exact .inr (List.mem_singleton.mp hx ▸ rfl)
      · cases hd
    · rw [h]
      exact .refl _
  · refine ⟨⟨enrolled, [⟨r, o, n.contextAt cell⟩]⟩, rfl, ?_, ?_⟩
    · rintro x (hx | ⟨d, hd, rfl⟩)
      · exact .inl hx
      · exact .inr (List.mem_singleton.mp hd ▸ rfl)
    · rw [h]
      have hc := calm_start (v := ⟨enrolled, [⟨r, o, n.contextAt cell⟩]⟩) rfl
      rw [after, List.append_nil] at hc
      exact hc

end Ledger

/-- What a step of an idle delivery does to the ledger: it leaves a line behind, or it starts the first
listener that is due. -/
inductive Ledger.Turn (v : Ledger V) : Ledger V → Prop
  | rest : Turn v v
  | answered (tag : String) (answer : Answer V) : Turn v ⟨v.network.emit (.answered tag answer), v.due⟩
  | panicked (fields : List (String × String)) :
      Turn v ⟨v.network.log (.of .listenerPanicked fields), v.due⟩
  | start {d : Due V} {due : List (Due V)} (h : v.due = d :: due) :
      Turn v (after ⟨v.network, due⟩ (v.network.start d.registered d.outcome d.context).1
        (v.network.start d.registered d.outcome d.context).2)

namespace Machine
variable {m m' : Machine V}

/-- No script has anything left to do, now or later. -/
structure Idle (m : Machine V) : Prop where
  listeners : ∀ r, m.ledger.Has r → r.listener.IsIdle
  stack : ∀ f ∈ m.stack, f.IsIdle

theorem settle_isIdle (n : Network V) (cell : Nat) (o : Outcome V) :
    ∀ f ∈ (n.settle cell o).2.1, f.IsIdle := by
  intro f hf
  rcases n.settle_cases cell o with ⟨_, _, hs⟩ | hs
  · rw [hs] at hf
    obtain rfl := List.mem_singleton.mp hf
    trivial
  · rw [hs] at hf
    cases hf

theorem start_isIdle (n : Network V) {r : Registered V} (h : r.listener.IsIdle) (o : Outcome V)
    (context : Option Context) : ∀ f ∈ (n.start r o context).2, f.IsIdle := by
  obtain ⟨serial, cell, listener⟩ := r
  cases listener with
  | script tag steps panics =>
    intro f hf
    obtain rfl := List.mem_singleton.mp hf
    exact h
  | receiver => exact List.forall_mem_nil _
  | recorder read => cases o <;> exact List.forall_mem_nil _
  | adapter into => exact settle_isIdle (n.emit (.started serial cell none o context)) into o.adapt

theorem register_isIdle (n : Network V) (cell : Nat) {l : Listener V} (h : l.IsIdle) :
    ∀ f ∈ (n.register cell l).2, f.IsIdle := by
  rcases n.register_cases cell l with ⟨-, hr⟩ | ⟨o, -, hr⟩
  · rw [hr]
    exact List.forall_mem_nil _
  · rw [hr]
    exact start_isIdle _ h o _

theorem unwind_calm (m : Machine V) :
    m.ledger.Calm m.unwind.ledger ∧ ∀ f ∈ m.unwind.stack, f ∈ m.stack := by
  have hc := dueOn_caught m.stack
  unfold unwind ledger
  split
  · rename_i h
    rw [h] at hc
    rw [hc]
    exact ⟨.refl _, List.forall_mem_nil _⟩
  · rename_i x below h
    rw [h] at hc
    rw [← hc]
    exact ⟨.quiet (m.network.quiet_log x).toStill, fun _ hf => caught_subset h hf⟩

theorem step_calm (hm : m.Idle) (h : m.step = some m') : m.ledger.Calm m'.ledger ∧ m'.Idle := by
  suffices hs : m.ledger.Calm m'.ledger ∧ ∀ f ∈ m'.stack, f.IsIdle from
    ⟨hs.1, fun r hr => hm.listeners r (hs.1.has r hr), hs.2⟩
  obtain ⟨n, stack, answer⟩ := m
  cases stack with
  | nil => cases h
  | cons f below =>
    have hbelow : ∀ g ∈ below, g.IsIdle := fun g hg => hm.stack g (List.mem_cons_of_mem _ hg)
    cases f with
    | body tag steps panics =>
      obtain rfl : steps = [] := hm.stack _ (List.mem_cons_self ..)
      obtain rfl := Option.some.inj h
      split
      · obtain ⟨hc, hu⟩ := unwind_calm ⟨n, below, answer⟩
        exact ⟨hc, fun g hg => hbelow g (hu g hg)⟩
      · exact ⟨.refl _, hbelow⟩
    | answering tag answer =>
      obtain rfl := Option.some.inj h
      exact ⟨.quiet (n.quiet_emit rfl).toStill, hbelow⟩
    | delivering o context rest position total =>
      cases rest with
      | nil =>
        obtain rfl := Option.some.inj h
        exact ⟨.refl _, hbelow⟩
      | cons r rest =>
        obtain rfl := Option.some.inj h
        rw [ledger, ledger, dueOn_append]
        refine ⟨Ledger.calm_start (d := ⟨r, o, context⟩) rfl, ?_⟩
        have hr : r.listener.IsIdle :=
          hm.listeners r (.inr ⟨⟨r, o, context⟩, List.mem_cons_self .., rfl⟩)
        intro g hg
        rcases List.mem_append.mp hg with hg | hg
        · exact start_isIdle n hr o context g hg
        · rcases List.mem_cons.mp hg with rfl | hg
          · trivial
          · exact hbelow g hg

theorem caught_panicked {fs below : List (Frame V)} {x : Log.Record}
    (h : caught? Frame.panicRecord? fs = some (x, below)) :
    ∃ fields, x = .of .listenerPanicked fields := by
  induction fs with
  | nil => cases h
  | cons f fs ih =>
    rw [caught?] at h
    split at h
    · rename_i hf
      cases h
      cases f with
      | delivering => exact ⟨_, (Option.some.inj hf).symm⟩
      | body | answering => cases hf
    · exact ih h

theorem unwind_turn (m : Machine V) : m.ledger.Turn m.unwind.ledger := by
  have hc := dueOn_caught m.stack
  unfold unwind ledger
  split
  · rename_i h
    rw [h] at hc
    rw [hc]
    exact .rest
  · rename_i x below h
    rw [h] at hc
    obtain ⟨fields, rfl⟩ := caught_panicked h
    rw [← hc]
    exact .panicked fields

theorem step_turn (hm : m.Idle) (h : m.step = some m') : m.ledger.Turn m'.ledger := by
  obtain ⟨n, stack, answer⟩ := m
  cases stack with
  | nil => cases h
  | cons f below =>
    cases f with
    | body tag steps panics =>
      obtain rfl : steps = [] := hm.stack _ (List.mem_cons_self ..)
      obtain rfl := Option.some.inj h
      split
      · exact unwind_turn ⟨n, below, answer⟩
      · exact .rest
    | answering tag answer =>
      obtain rfl := Option.some.inj h
      exact .answered tag answer
    | delivering o context rest position total =>
      cases rest with
      | nil =>
        obtain rfl := Option.some.inj h
        exact .rest
      | cons r rest =>
        obtain rfl := Option.some.inj h
        rw [ledger, ledger, dueOn_append]
        exact .start (d := ⟨r, o, context⟩) rfl

abbrev Steps (m m' : Machine V) : Prop := ReflTransGen (fun m m' => m.step = some m') m m'

theorem steps_turns (hm : m.Idle) (h : m.Steps m') :
    ReflTransGen Ledger.Turn m.ledger m'.ledger ∧ m'.Idle := by
  induction h with
  | refl => exact ⟨.refl, hm⟩
  | tail _ h ih => exact ⟨ih.1.tail (step_turn ih.2 h), (step_calm ih.2 h).2⟩

theorem run_steps (m : Machine V) : m.Steps m.run ∧ m.run.stack = [] := by
  induction m using Machine.run.induct with
  | case1 m h =>
    rw [run, h]
    exact ⟨.refl, step_eq_none h⟩
  | case2 m m' h ih =>
    rw [run, h]
    exact ⟨.head h ih.1, ih.2⟩

/-- A delivery is worked off turn by turn. -/
theorem deliver_turns {n : Network V} {frames : List (Frame V)} (hm : Idle ⟨n, frames, .nothing⟩) :
    ReflTransGen Ledger.Turn ⟨n, dueOn frames⟩ ⟨n.deliver frames, []⟩ := by
  obtain ⟨hs, hstack⟩ := run_steps ⟨n, frames, .nothing⟩
  have ht := (steps_turns hm hs).1
  rw [ledger, ledger, hstack] at ht
  exact ht

theorem run_calm (m : Machine V) (hm : m.Idle) : m.ledger.Calm m.run.ledger := by
  induction m using Machine.run.induct with
  | case1 m h =>
    rw [run, h]
    exact .refl _
  | case2 m m' h ih =>
    obtain ⟨hc, hi⟩ := step_calm hm h
    rw [run, h]
    exact hc.trans (ih hi)

end Machine
end ReplicaRouting.Result
