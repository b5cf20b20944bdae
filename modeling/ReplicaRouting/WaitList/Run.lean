import ReplicaRouting.WaitList.Weight
/-!
Runs of a wait list: what a call leaves to do is worked off first, then the queue of the notifier in its
order; the waiters of a dropped list go last of all. A panic stops at the callback or listener that it
comes from.
-/

namespace ReplicaRouting.WaitList

structure Machine where
  state : State
  stack : List Frame
  answer : Answer

/-- What is logged of a panic that stops at this frame; through other frames it passes. -/
def Frame.panicRecord? : Frame → Option Log.Record
  | .batch lsn .. | .notifying lsn => some (.of .waiterPanicked [("latest", lsn.text)])
  | .delivering _ _ position total => some (.of .listenerPanicked [("listener", Text.numeral (position - 1)),
      ("registered", Text.numeral total)])
  | _ => none

namespace Machine

def unwind (m : Machine) : Machine :=
  match caught? Frame.panicRecord? m.stack with
  | none => { m with stack := [], answer := .panicked }
  | some (r, below) => { m with state := m.state.log r, stack := below }

/-- One step; `none` when the list is at rest. -/
def step (m : Machine) : Option Machine :=
  match m.stack with
  | [] =>
    match m.state.notify with
    | none => none
    | some begun => some { m with state := begun.1, stack := begun.2 }
  | .body tag (a :: steps) panics :: below =>
    let done := m.state.perform a
    some { m with
      state := done.1
      stack := done.2.1 ++ .answering tag done.2.2 :: .body tag steps panics :: below }
  | .body _ [] panics :: below =>
    let m := { m with stack := below }
    some (if panics then m.unwind else m)
  | .answering tag answer :: below =>
    some { m with state := m.state.emit (.answered tag answer), stack := below }
  | .batch lsn round (w :: rest) taken :: below =>
    let begun := m.state.start w lsn (.batch round)
    some { m with state := begun.1, stack := begun.2 ++ .batch lsn round rest taken :: below }
  | .batch lsn round [] taken :: below =>
    match m.state.late with
    | [] => some ⟨m.state.rest lsn taken, below, .count taken⟩
    | w :: late =>
      let begun := { m.state with late := [] }.start w lsn (.batch (round + 1))
      some { m with
        state := begun.1
        stack := begun.2 ++ .batch lsn (round + 1) late (taken + late.length + 1) :: below }
  | .notifying _ :: below => some { m with stack := below }
  | .delivering _ [] _ _ :: below => some { m with stack := below }
  | .delivering o (l :: rest) position total :: below =>
    let heard := m.state.hear l o
    some { m with state := heard.1, stack := heard.2 ++ .delivering o rest (position + 1) total :: below }
  | .withdrawing h :: below => some { m with state := m.state.withdraw h, stack := below }
  | .discarding rest :: below =>
    match m.state.notify, rest with
    | some begun, rest => some { m with state := begun.1, stack := begun.2 ++ .discarding rest :: below }
    | none, [] => some { m with stack := below }
    | none, w :: rest =>
      let gone := m.state.discard w
      some { m with state := gone.1, stack := gone.2 ++ .discarding rest :: below }

def weight (m : Machine) : Nat := m.state.weight + total Frame.weight m.stack

theorem weight_unwind (m : Machine) : m.unwind.weight ≤ m.weight := by
  unfold unwind weight
  split
  · simp
  · rename_i h
    have := total_caught Frame.weight h
    simp only [State.weight_log]
    omega

theorem weight_step {m m' : Machine} (h : m.step = some m') : m'.weight < m.weight := by
  unfold step at h
  split at h
  · rename_i hs
    split at h
    · cases h
    · rename_i begun hn
      obtain rfl := Option.some.inj h
      have := State.weight_notify hn
      simp only [weight, hs, total_nil]
      omega
  · rename_i tag a steps panics below hs
    obtain rfl := Option.some.inj h
    have := m.state.weight_perform a
    simp only [weight, hs, total_append, total_cons, Frame.weight, Action.weights] at this ⊢
    omega
  · rename_i panics below hs
    obtain rfl := Option.some.inj h
    have : ({ m with stack := below } : Machine).weight < m.weight := by
      simp [weight, hs, Frame.weight, Action.weights]
    split
    · exact Nat.lt_of_le_of_lt (weight_unwind _) this
    · exact this
  · rename_i hs
    obtain rfl := Option.some.inj h
    simp [weight, hs, Frame.weight]
  · rename_i lsn round w rest taken below hs
    obtain rfl := Option.some.inj h
    have := m.state.weight_start w lsn (.batch round)
    simp only [weight, hs, total_append, total_cons, Frame.weight] at this ⊢
    omega
  · rename_i lsn round taken below hs
    split at h
    · obtain rfl := Option.some.inj h
      simp [weight, hs, Frame.weight, State.rest, State.weight, State.log, State.emit]
    · rename_i w late hl
      obtain rfl := Option.some.inj h
      have := { m.state with late := [] }.weight_start w lsn (.batch (round + 1))
      simp only [weight, hs, total_append, total_cons, Frame.weight, total_nil] at this ⊢
      simp only [State.weight, hl, total_cons, total_nil] at this ⊢
      omega
  · rename_i hs
    obtain rfl := Option.some.inj h
    simp [weight, hs, Frame.weight]
  · rename_i hs
    obtain rfl := Option.some.inj h
    simp [weight, hs, Frame.weight]
  · rename_i o l rest position total below hs
    obtain rfl := Option.some.inj h
    simp only [weight, hs, State.hear, State.weight_emit, total_append, total_cons, total_nil,
      Frame.weight, Listener.weight]
    omega
  · rename_i hs
    obtain rfl := Option.some.inj h
    simp [weight, hs, Frame.weight, State.withdraw, State.weight, State.log, State.emit]
  · rename_i rest below hs
    split at h
    · rename_i begun hn
      obtain rfl := Option.some.inj h
      have := State.weight_notify hn
      simp only [weight, hs, total_append, total_cons]
      omega
    · obtain rfl := Option.some.inj h
      simp [weight, hs, Frame.weight]
    · rename_i w rest _
      obtain rfl := Option.some.inj h
      have := m.state.weight_discard w
      simp only [weight, hs, total_append, total_cons, Frame.weight] at this ⊢
      omega

/-- Works off the stack and the queue. -/
def run (m : Machine) : Machine :=
  match _h : m.step with
  | none => m
  | some m' => m'.run
termination_by m.weight
decreasing_by exact weight_step _h

end Machine

/-- What the owner of the list does between its callbacks. -/
inductive Call
  | act (a : Action)
  | advance (lsn : Lsn)
  | drop

namespace State

def begin (s : State) : Call → State × List Frame × Answer
  | .act a => s.perform a
  | .advance lsn => s.advance lsn
  | .drop => s.drop

/-- One call, with all that it sets off. -/
def call (s : State) (c : Call) : State × Answer :=
  let begun := s.begin c
  let m := Machine.run ⟨begun.1, begun.2.1, begun.2.2⟩
  (m.state, m.answer)

/-- Calls in turn, and their answers. -/
def calls (s : State) : List Call → State × List Answer
  | [] => (s, [])
  | c :: cs =>
    let called := s.call c
    let rest := called.1.calls cs
    (rest.1, called.2 :: rest.2)

end State
end ReplicaRouting.WaitList
