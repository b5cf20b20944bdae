import ReplicaRouting.Proofs.Result.Idle
/-!
What a network does has nothing to do with its past, and until a listener starts nothing to do with what it
is going to run. A network with another past, in which the waiting listeners are exchanged one for one, does
the same and stays related to the first one in the same way.
-/

namespace ReplicaRouting.Result

variable {V : Type}

/-- The listeners that wait, exchanged one for one, and a past before the history. -/
def Network.recast (f : Registered V → Registered V) (past : List (Entry V)) (n : Network V) : Network V :=
  { n with waiting := n.waiting.map f, history := past ++ n.history }

def Frame.recast (f : Registered V → Registered V) : Frame V → Frame V
  | .delivering o c rest position total => .delivering o c (rest.map f) position total
  | g => g

namespace Network

def recastBegun (f : Registered V → Registered V) (past : List (Entry V)) (r : Network V × List (Frame V)) :
    Network V × List (Frame V) :=
  (r.1.recast f past, r.2.map (Frame.recast f))

def recastDone {β : Type} (f : Registered V → Registered V) (past : List (Entry V))
    (r : Network V × List (Frame V) × β) : Network V × List (Frame V) × β :=
  (r.1.recast f past, r.2.1.map (Frame.recast f), r.2.2)

variable (f : Registered V → Registered V) (past : List (Entry V)) (n : Network V)

theorem recast_emit (e : Entry V) : (n.recast f past).emit e = (n.emit e).recast f past := by
  simp only [emit, recast, List.append_assoc]

theorem recast_log (r : Log.Record) : (n.recast f past).log r = (n.log r).recast f past :=
  recast_emit f past n _

variable {f}

theorem filter_map_cell (hf : ∀ r, (f r).cell = r.cell) (p : Nat → Bool) (rs : List (Registered V)) :
    (rs.map f).filter (fun r => p r.cell) = (rs.filter fun r => p r.cell).map f := by
  rw [List.filter_map]
  congr 1
  exact List.filter_congr fun r _ => by rw [Function.comp_apply, hf]

theorem recast_settle (hf : ∀ r, (f r).cell = r.cell) (cell : Nat) (o : Outcome V) :
    (n.recast f past).settle cell o = recastDone f past (n.settle cell o) := by
  have hdue := filter_map_cell hf (fun c => decide (c = cell)) n.waiting
  have hrest := filter_map_cell hf (fun c => decide (c ≠ cell)) n.waiting
  cases hc : n.cells[cell]? with
  | none =>
    have hc' : (n.recast f past).cells[cell]? = none := hc
    simp only [settle, hc, hc', recastDone, List.map_nil]
  | some c =>
    obtain ⟨context, outcome⟩ := c
    have hc' : (n.recast f past).cells[cell]? = some ⟨context, outcome⟩ := hc
    cases outcome with
    | some outcome => simp only [settle, hc, hc', recastDone, List.map_nil]
    | none =>
      simp only [settle, hc, hc', recastDone, List.map_cons, List.map_nil, Frame.recast]
      simp only [recast, hdue, hrest, List.length_map]

theorem recast_start {r : Registered V} (hf : ∀ r, (f r).cell = r.cell) (o : Outcome V) (c : Option Context) :
    (n.recast f past).start r o c = recastBegun f past (n.start r o c) := by
  have he := recast_emit f past n (.started r.serial r.cell r.listener.tag? o c)
  obtain ⟨serial, cell, listener⟩ := r
  cases listener with
  | script tag steps panics => exact Prod.ext he rfl
  | adapter into =>
    simp only [start, he, recast_settle _ _ hf]
    rfl
  | receiver =>
    simp only [start, he]
    rfl
  | recorder read =>
    cases o with
    | value v => exact Prod.ext he rfl
    | failed fault =>
      simp only [start, he]
      exact Prod.ext (recast_log f past { n.emit (.started serial cell none (.failed fault) c) with
        metrics := n.metrics.countFailure fault.routed.code } _) rfl

theorem recast_register (hf : ∀ r, (f r).cell = r.cell) (cell : Nat) (l : Listener V)
    (hnew : f ⟨n.registrations, cell, l⟩ = ⟨n.registrations, cell, l⟩) :
    (n.recast f past).register cell l = recastBegun f past (n.register cell l) := by
  let enrolled : Network V := { n with registrations := n.registrations + 1 }.emit (.registered n.registrations cell)
  have he : ({ n.recast f past with registrations := n.registrations + 1 } : Network V).emit
      (.registered n.registrations cell) = enrolled.recast f past :=
    recast_emit f past { n with registrations := n.registrations + 1 } _
  rcases n.register_cases cell l with ⟨ho, h⟩ | ⟨o, ho, h⟩
  · rcases (n.recast f past).register_cases cell l with ⟨-, h'⟩ | ⟨o, ho', -⟩
    · rw [h, h']
      simp only [recast, emit, recastBegun, List.map_append, List.map_cons, List.map_nil, hnew, List.append_assoc]
    · cases ho.symm.trans ho'
  · rcases (n.recast f past).register_cases cell l with ⟨ho', -⟩ | ⟨o', ho', h'⟩
    · cases ho'.symm.trans ho
    · obtain rfl : o = o' := Option.some.inj (ho.symm.trans ho')
      rw [h, h']
      exact (congrArg (fun e : Network V => e.start ⟨n.registrations, cell, l⟩ o (n.contextAt cell)) he).trans
        (recast_start past enrolled hf o _)

theorem recast_dropCompleter (hf : ∀ r, (f r).cell = r.cell) (name : String) :
    (n.recast f past).dropCompleter name = recastDone f past (n.dropCompleter name) := by
  rcases n.dropCompleter_cases name with ⟨hc, h⟩ | ⟨cell, hc, h⟩
  · rcases (n.recast f past).dropCompleter_cases name with ⟨-, h'⟩ | ⟨cell, hc', -⟩
    · rw [h, h']
      rfl
    · cases hc.symm.trans hc'
  · rcases (n.recast f past).dropCompleter_cases name with ⟨hc', -⟩ | ⟨cell', hc', h'⟩
    · cases hc'.symm.trans hc
    · obtain rfl : cell = cell' := Option.some.inj (hc.symm.trans hc')
      rw [h, h']
      exact recast_settle past (n.without name) hf cell _

theorem recast_addPending (hf : ∀ r, (f r).cell = r.cell) (name : String) (context : Option Context) :
    (n.recast f past).addPending name context = recastBegun f past (n.addPending name context) := by
  let named : Network V := { (n.addCell ⟨context, none⟩).1 with names := n.names.bind name n.cells.length }
  have hd : (named.recast f past).dropCompleter name = _ := recast_dropCompleter past named hf name
  exact congrArg (fun d : Network V × List (Frame V) × Bool =>
    (({ d.1 with completers := d.1.completers.bind name n.cells.length } : Network V), d.2.1)) hd

theorem recast_poll (as : String) :
    (n.recast f past).poll as = ((n.poll as).1.recast f past, (n.poll as).2) := by
  have hw : (n.recast f past).waits = n.waits := rfl
  unfold poll
  rw [hw]
  split <;> rfl

theorem recast_perform (hf : ∀ r, (f r).cell = r.cell)
    (hnew : ∀ cell l, f ⟨n.registrations, cell, l⟩ = ⟨n.registrations, cell, l⟩) (a : Action V) :
    (n.recast f past).perform a = recastDone f past (n.perform a) := by
  have hnames : (n.recast f past).names = n.names := rfl
  cases a with
  | pending name token =>
    have h := recast_addPending past (n.freshContext token).1 hf name (some (n.freshContext token).2)
    exact congrArg (fun d : Network V × List (Frame V) => (d.1, d.2, Answer.nothing)) h
  | settled name o token => rfl
  | response name =>
    have h := recast_addPending past n hf name none
    exact congrArg (fun d : Network V × List (Frame V) => (d.1, d.2, Answer.nothing)) h
  | settledResponse name o => rfl
  | adapt source name token =>
    simp only [perform, hnames]
    split
    · rfl
    · rename_i cell _
      have h := recast_register past ((n.freshContext token).1.addCell ⟨some (n.freshContext token).2, none⟩).1 hf
        cell (.adapter n.cells.length) (hnew cell _)
      exact congrArg (fun d : Network V × List (Frame V) =>
        (({ d.1 with names := d.1.names.bind name n.cells.length } : Network V), d.2, Answer.nothing)) h
  | clone source name =>
    simp only [perform, hnames]
    split <;> rfl
  | complete name o =>
    have hc : (n.recast f past).completers = n.completers := rfl
    simp only [perform, takeCompleter, hc]
    cases n.completers.find? name with
    | none => rfl
    | some cell =>
      have h := recast_settle past (n.without name) hf cell o
      exact congrArg (fun d : Network V × List (Frame V) × Bool => (d.1, d.2.1, Answer.flag d.2.2)) h
  | abandon name =>
    have hc : (n.recast f past).completers = n.completers := rfl
    simp only [perform, hc, recast_dropCompleter past n hf]
    split <;> rfl
  | listen name tag steps panics =>
    simp only [perform, hnames]
    split
    · rfl
    · rename_i cell _
      rw [recast_register past n hf cell _ (hnew cell _)]
      rfl
  | wait name as =>
    simp only [perform, hnames]
    split
    · rfl
    · rename_i cell _
      have h : ((n.awaiting as cell).recast f past).register cell .receiver = _ :=
        recast_register past (n.awaiting as cell) hf cell .receiver (hnew cell _)
      have hp := recast_poll (f := f) past ((n.awaiting as cell).register cell .receiver).1 as
      refine (congrArg (fun w : Network V × List (Frame V) => ((w.1.poll as).1, w.2, (w.1.poll as).2)) h).trans ?_
      exact congrArg (fun p : Network V × Answer V => (p.1, _, p.2)) hp
  | poll as =>
    simp only [perform, recast_poll]
    rfl
  | join as =>
    have ht : (n.recast f past).threads = n.threads := rfl
    have ho : ∀ cell, (n.recast f past).outcomeAt cell = n.outcomeAt cell := fun _ => rfl
    simp only [perform, ht, ho]
    repeat' split
    all_goals rfl
  | block name as =>
    simp only [perform, hnames]
    split <;> rfl
  | completer name =>
    have hc : (n.recast f past).completers = n.completers := rfl
    simp only [perform, hc]
    split <;> rfl
  | get | getTimeout | isDone | describe | context =>
    have ho : ∀ cell, (n.recast f past).outcomeAt cell = n.outcomeAt cell := fun _ => rfl
    simp only [perform, hnames, ho]
    repeat' split
    all_goals rfl

end Network

/-! ### Steps and runs -/

theorem caught_map {F : Frame V → Frame V} (hF : ∀ g, (F g).panicRecord? = g.panicRecord?) (fs : List (Frame V)) :
    caught? Frame.panicRecord? (fs.map F) =
      (caught? Frame.panicRecord? fs).map fun c => (c.1, c.2.map F) := by
  induction fs with
  | nil => rfl
  | cons g fs ih =>
    rw [List.map_cons, caught?, caught?, hF]
    cases g.panicRecord? with
    | some line => rfl
    | none => exact ih

theorem Machine.unwind_map {F : Frame V → Frame V} {G : Network V → Network V}
    (hF : ∀ g, (F g).panicRecord? = g.panicRecord?) (hG : ∀ n x, (G n).log x = G (n.log x)) (m : Machine V) :
    unwind ⟨G m.network, m.stack.map F, m.answer⟩ =
      ⟨G m.unwind.network, m.unwind.stack.map F, m.unwind.answer⟩ := by
  have hc := caught_map hF m.stack
  unfold unwind
  cases h : caught? Frame.panicRecord? m.stack with
  | none =>
    rw [h] at hc
    rw [hc]
    rfl
  | some c =>
    rw [h] at hc
    rw [hc]
    exact congrArg (fun n : Network V => Machine.mk n _ m.answer) (hG m.network c.1)

namespace Machine

def recast (f : Registered V → Registered V) (past : List (Entry V)) (m : Machine V) : Machine V :=
  ⟨m.network.recast f past, m.stack.map (Frame.recast f), m.answer⟩

variable {f : Registered V → Registered V} (past : List (Entry V))

theorem recast_unwind (m : Machine V) : (m.recast f past).unwind = m.unwind.recast f past := by
  refine unwind_map (fun g => ?_) (fun n x => Network.recast_log f past n x) m
  cases g <;> rfl

/-- A step goes the same way, unless it starts a listener that is exchanged. -/
theorem recast_step (hf : ∀ r, (f r).cell = r.cell) {m : Machine V}
    (hnew : ∀ cell l, f ⟨m.network.registrations, cell, l⟩ = ⟨m.network.registrations, cell, l⟩)
    (hstart : ∀ o c r rest position total below,
      m.stack = .delivering o c (r :: rest) position total :: below → f r = r) :
    (m.recast f past).step = m.step.map (recast f past) := by
  obtain ⟨n, stack, answer⟩ := m
  cases stack with
  | nil => rfl
  | cons g below =>
    cases g with
    | body tag steps panics =>
      cases steps with
      | cons a steps =>
        have h := Network.recast_perform past n hf hnew a
        refine (congrArg (fun d : Network V × List (Frame V) × Answer V => some (Machine.mk d.1
          (d.2.1 ++ .answering tag d.2.2 :: .body tag steps panics :: below.map (Frame.recast f)) answer)) h).trans ?_
        simp only [Network.recastDone, step, Option.map_some, recast, List.map_append, List.map_cons, Frame.recast]
      | nil =>
        cases panics with
        | false => rfl
        | true => exact congrArg some (recast_unwind past ⟨n, below, answer⟩)
    | answering tag answered =>
      exact congrArg (fun n : Network V => some (Machine.mk n (below.map (Frame.recast f)) answer))
        (Network.recast_emit f past n (.answered tag answered))
    | delivering o c rest position total =>
      cases rest with
      | nil => rfl
      | cons r rest =>
        have hr : f r = r := hstart o c r rest position total below rfl
        have h : (n.recast f past).start (f r) o c = _ :=
          (congrArg (fun r => (n.recast f past).start r o c) hr).trans (Network.recast_start past n hf o c)
        refine (congrArg (fun d : Network V × List (Frame V) => some (Machine.mk d.1
          (d.2 ++ .delivering o c (rest.map f) (position + 1) total :: below.map (Frame.recast f)) answer)) h).trans ?_
        simp only [Network.recastBegun, step, Option.map_some, recast, List.map_append, List.map_cons, Frame.recast]

end Machine

/-! ### Another past -/

theorem Frame.recast_id (g : Frame V) : g.recast id = g := by
  cases g with
  | delivering => simp only [Frame.recast, List.map_id]
  | body | answering => rfl

namespace Network

def since (past : List (Entry V)) (n : Network V) : Network V := { n with history := past ++ n.history }

theorem recast_id (past : List (Entry V)) (n : Network V) : n.recast id past = n.since past := by
  simp only [recast, since, List.map_id]

theorem perform_since (past : List (Entry V)) (n : Network V) (a : Action V) :
    (n.since past).perform a = ((n.perform a).1.since past, (n.perform a).2) := by
  have h := recast_perform past n (f := id) (fun _ => rfl) (fun _ _ => rfl) a
  rw [recast_id, recastDone, recast_id] at h
  rw [h, show Frame.recast (V := V) id = id from funext Frame.recast_id, List.map_id]

end Network

namespace Machine

def since (past : List (Entry V)) (m : Machine V) : Machine V := { m with network := m.network.since past }

theorem recast_id (past : List (Entry V)) (m : Machine V) : m.recast id past = m.since past := by
  rw [recast, Network.recast_id, show Frame.recast (V := V) id = id from funext Frame.recast_id, List.map_id]
  rfl

theorem step_since (past : List (Entry V)) (m : Machine V) : (m.since past).step = m.step.map (since past) := by
  have h := recast_step past (f := id) (m := m) (fun _ => rfl) (fun _ _ => rfl)
    fun _ _ _ _ _ _ _ _ => rfl
  rwa [recast_id, show recast id past = since past from funext (recast_id past)] at h

theorem run_since (past : List (Entry V)) (m : Machine V) : (m.since past).run = m.run.since past := by
  induction m using Machine.run.induct with
  | case1 m h =>
    rw [run, step_since, h, run, h]
    rfl
  | case2 m m' h ih =>
    rw [run, step_since, h, run, h]
    exact ih

end Machine

namespace Network

theorem call_since (past : List (Entry V)) (n : Network V) (a : Action V) :
    (n.since past).call a = ((n.call a).1.since past, (n.call a).2) := by
  have h := Machine.run_since past ⟨(n.perform a).1, (n.perform a).2.1, (n.perform a).2.2⟩
  rw [call, perform_since]
  exact congrArg (fun m : Machine V => (m.network, m.answer)) h

end Network
end ReplicaRouting.Result
