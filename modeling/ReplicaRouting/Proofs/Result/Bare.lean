import ReplicaRouting.Proofs.Result.Recast
/-!
Networks without the tokens of their contexts. Nothing that a network does without scripts looks at a token, so
it makes no difference when they are taken away.
-/

namespace ReplicaRouting.Result

variable {V : Type}

/-- The context without its token. -/
def Context.bare (c : Context) : Context := { c with token := none }

def Cell.bare (c : Cell V) : Cell V := { c with context := c.context.map (·.bare) }

def Entry.bare : Entry V → Entry V
  | .started serial cell tag o c => .started serial cell tag o (c.map (·.bare))
  | e => e

def Frame.bare : Frame V → Frame V
  | .delivering o c rest position total => .delivering o (c.map (·.bare)) rest position total
  | g => g

namespace Network
variable (n : Network V)

def bare : Network V := { n with cells := n.cells.map (·.bare), history := n.history.map (·.bare) }

theorem bare_emit (e : Entry V) : (n.emit e).bare = n.bare.emit e.bare := by
  simp only [bare, emit, List.map_append, List.map_cons, List.map_nil]

theorem bare_log (x : Log.Record) : (n.log x).bare = n.bare.log x := n.bare_emit _

theorem bare_addCell (c : Cell V) : (n.addCell c).1.bare = (n.bare.addCell c.bare).1 := by
  simp only [bare, addCell, List.map_append, List.map_cons, List.map_nil]

theorem length_bare : n.bare.cells.length = n.cells.length := List.length_map ..

theorem getElem_bare (cell : Nat) : n.bare.cells[cell]? = (n.cells[cell]?).map (·.bare) := List.getElem?_map ..

theorem outcomeAt_bare (cell : Nat) : n.bare.outcomeAt cell = n.outcomeAt cell := by
  rw [outcomeAt, outcomeAt, getElem_bare]
  cases n.cells[cell]? <;> rfl

theorem contextAt_bare (cell : Nat) : n.bare.contextAt cell = (n.contextAt cell).map (·.bare) := by
  rw [contextAt, contextAt, getElem_bare]
  cases n.cells[cell]? <;> rfl

theorem settle_bare (cell : Nat) (o : Outcome V) :
    n.bare.settle cell o = ((n.settle cell o).1.bare, (n.settle cell o).2.1.map (·.bare), (n.settle cell o).2.2) := by
  have hc := n.getElem_bare cell
  cases h : n.cells[cell]? with
  | none =>
    rw [h] at hc
    simp only [settle, h, hc, Option.map_none, List.map_nil]
  | some c =>
    obtain ⟨context, outcome⟩ := c
    rw [h] at hc
    cases outcome with
    | some outcome => simp only [settle, h, hc, Option.map_some, Cell.bare, List.map_nil]
    | none =>
      simp only [settle, h, hc, Option.map_some, Cell.bare, List.map_cons, List.map_nil, Frame.bare]
      simp only [bare, List.map_set, Cell.bare]

theorem start_bare (r : Registered V) (o : Outcome V) (c : Option Context) :
    n.bare.start r o (c.map (·.bare)) = ((n.start r o c).1.bare, (n.start r o c).2.map (·.bare)) := by
  obtain ⟨serial, cell, listener⟩ := r
  have he : ∀ tag, n.bare.emit (.started serial cell tag o (c.map (·.bare))) =
      (n.emit (.started serial cell tag o c)).bare :=
    fun tag => (n.bare_emit (.started serial cell tag o c)).symm
  cases listener with
  | script tag steps panics => exact Prod.ext (he (some tag)) rfl
  | receiver =>
    exact Prod.ext (congrArg (fun n : Network V => { n with waits := n.waits.mapValues (.receive serial o) })
      (he none)) rfl
  | adapter into =>
    have hs := settle_bare (n.emit (.started serial cell none o c)) into o.adapt
    simp only [start, Listener.tag?]
    rw [he none, hs]
  | recorder read =>
    cases o with
    | value v => exact Prod.ext (he none) rfl
    | failed f =>
      refine Prod.ext ?_ rfl
      simp only [start, Listener.tag?, bare_log]
      rw [he none]
      rfl

theorem register_bare (cell : Nat) (l : Listener V) :
    n.bare.register cell l = ((n.register cell l).1.bare, (n.register cell l).2.map (·.bare)) := by
  let enrolled : Network V := { n with registrations := n.registrations + 1 }.emit (.registered n.registrations cell)
  have he : { n.bare with registrations := n.registrations + 1 }.emit (.registered n.registrations cell) =
      enrolled.bare :=
    (bare_emit { n with registrations := n.registrations + 1 } (.registered n.registrations cell)).symm
  have ho := n.outcomeAt_bare cell
  rcases n.register_cases cell l with ⟨hp, h⟩ | ⟨o, hs, h⟩
  · rcases n.bare.register_cases cell l with ⟨-, h'⟩ | ⟨o, hs, -⟩
    · rw [h, h']
      let r : Registered V := ⟨n.registrations, cell, l⟩
      exact congrArg (fun e : Network V => ({ e with waiting := n.waiting ++ [r] }, ([] : List (Frame V)))) he
    · cases hp.symm.trans (ho.symm.trans hs)
  · rcases n.bare.register_cases cell l with ⟨hp, -⟩ | ⟨o', hs', h'⟩
    · cases hs.symm.trans (ho.symm.trans hp)
    · obtain rfl := Option.some.inj (hs.symm.trans (ho.symm.trans hs'))
      rw [h, h', contextAt_bare]
      exact (congrArg (fun e : Network V => e.start ⟨n.registrations, cell, l⟩ o _) he).trans
        (start_bare enrolled _ o _)

theorem addAdapted_bare (source : Nat) (context : Context) :
    n.bare.addAdapted source context.bare =
      (((n.addAdapted source context).1.1.bare, (n.addAdapted source context).1.2.map (·.bare)),
        (n.addAdapted source context).2) := by
  have h := register_bare (n.addCell ⟨some context, none⟩).1 source (.adapter n.cells.length)
  rw [bare_addCell] at h
  refine Prod.ext ?_ n.length_bare
  show (n.bare.addCell _).1.register source (.adapter n.bare.cells.length) = _
  rw [length_bare]
  exact h

end Network

namespace Machine

def bare (m : Machine V) : Machine V := ⟨m.network.bare, m.stack.map (·.bare), m.answer⟩

theorem unwind_bare (m : Machine V) : m.bare.unwind = m.unwind.bare := by
  refine unwind_map (fun g => ?_) (fun n x => (n.bare_log x).symm) m
  cases g <;> rfl

theorem step_bare {m : Machine V} (hm : m.Idle) : m.bare.step = m.step.map (·.bare) := by
  obtain ⟨n, stack, answer⟩ := m
  cases stack with
  | nil => rfl
  | cons g below =>
    cases g with
    | body tag steps panics =>
      obtain rfl : steps = [] := hm.stack _ (.head _)
      cases panics with
      | false => rfl
      | true => exact congrArg some (unwind_bare ⟨n, below, answer⟩)
    | answering tag answered =>
      exact congrArg (fun n : Network V => some (Machine.mk n (below.map (·.bare)) answer))
        (n.bare_emit (.answered tag answered)).symm
    | delivering o c rest position total =>
      cases rest with
      | nil => rfl
      | cons r rest =>
        have h := n.start_bare r o c
        refine (congrArg (fun d : Network V × List (Frame V) => some (Machine.mk d.1
          (d.2 ++ .delivering o (c.map (·.bare)) rest (position + 1) total :: below.map (·.bare)) answer)) h).trans ?_
        simp only [step, Option.map_some, bare, List.map_append, List.map_cons, Frame.bare]

theorem run_bare {m : Machine V} (hm : m.Idle) : m.bare.run = m.run.bare := by
  induction m using Machine.run.induct with
  | case1 m h =>
    rw [run, step_bare hm, h, run, h]
    rfl
  | case2 m m' h ih =>
    rw [run, step_bare hm, h, run, h]
    exact ih (step_calm hm h).2

end Machine

theorem Network.deliver_bare {n : Network V} {frames : List (Frame V)} (hm : Machine.Idle ⟨n, frames, .nothing⟩) :
    n.bare.deliver (frames.map (·.bare)) = (n.deliver frames).bare :=
  congrArg Machine.network (Machine.run_bare hm)

end ReplicaRouting.Result
