import ReplicaRouting.Result.Weight
/-!
Runs of a network: a stack of work in progress that is worked off step by step. A panic unwinds to the
delivery that started the listener, or out of the call.
-/

namespace ReplicaRouting.Result

structure Machine (V : Type) where
  network : Network V
  stack : List (Frame V)
  answer : Answer V

/-- What is logged of a panic that stops at this frame; through other frames it passes. -/
def Frame.panicRecord? : Frame V → Option Log.Record
  | .delivering _ _ _ position total => some (.of .listenerPanicked
      [("listener", Text.numeral (position - 1)), ("registered", Text.numeral total)])
  | _ => none

namespace Machine

def unwind (m : Machine V) : Machine V :=
  match caught? Frame.panicRecord? m.stack with
  | none => { m with stack := [], answer := .panicked }
  | some (r, below) => { m with network := m.network.log r, stack := below }

/-- One step; `none` when nothing is left to do. -/
def step (m : Machine V) : Option (Machine V) :=
  match m.stack with
  | [] => none
  | .body tag (a :: steps) panics :: below =>
    let done := m.network.perform a
    some { m with
      network := done.1
      stack := done.2.1 ++ .answering tag done.2.2 :: .body tag steps panics :: below }
  | .body _ [] panics :: below =>
    let m := { m with stack := below }
    some (if panics then m.unwind else m)
  | .answering tag answer :: below =>
    some { m with network := m.network.emit (.answered tag answer), stack := below }
  | .delivering _ _ [] _ _ :: below => some { m with stack := below }
  | .delivering o c (r :: rest) position total :: below =>
    let begun := m.network.start r o c
    some { m with network := begun.1, stack := begun.2 ++ .delivering o c rest (position + 1) total :: below }

def weight (m : Machine V) : Nat := m.network.weight + total Frame.weight m.stack

theorem weight_unwind (m : Machine V) : m.unwind.weight ≤ m.weight := by
  unfold unwind weight
  split
  · simp
  · rename_i h
    have := total_caught Frame.weight h
    simp only [Network.weight_log]
    omega

theorem weight_step {m m' : Machine V} (h : m.step = some m') : m'.weight < m.weight := by
  unfold step at h
  split at h
  · cases h
  · rename_i tag a steps panics below hs
    obtain rfl := Option.some.inj h
    have := m.network.weight_perform a
    simp only [weight, hs, total_append, total_cons, Frame.weight, Action.weights] at this ⊢
    omega
  · rename_i panics below hs
    cases h
    have : ({ m with stack := below } : Machine V).weight < m.weight := by
      simp [weight, hs, Frame.weight, Action.weights]
    split
    · exact Nat.lt_of_le_of_lt (weight_unwind _) this
    · exact this
  · rename_i hs
    cases h
    simp [weight, hs, Frame.weight]
  · rename_i hs
    cases h
    simp [weight, hs, Frame.weight]
  · rename_i o c r rest position total below hs
    obtain rfl := Option.some.inj h
    have := m.network.weight_start r o c
    simp only [weight, hs, total_append, total_cons, Frame.weight] at this ⊢
    omega

def run (m : Machine V) : Machine V :=
  match _h : m.step with
  | none => m
  | some m' => m'.run
termination_by m.weight
decreasing_by exact weight_step _h

end Machine

namespace Network

/-- Works off what a change of the network left to do. -/
def deliver (n : Network V) (frames : List (Frame V)) : Network V :=
  (Machine.run ⟨n, frames, .nothing⟩).network

/-- One action of the caller, with all that it sets off. -/
def call (n : Network V) (a : Action V) : Network V × Answer V :=
  let begun := n.perform a
  let m := Machine.run ⟨begun.1, begun.2.1, begun.2.2⟩
  (m.network, m.answer)

def calls (n : Network V) : List (Action V) → Network V × List (Answer V)
  | [] => (n, [])
  | a :: as =>
    let called := n.call a
    let rest := called.1.calls as
    (rest.1, called.2 :: rest.2)

end Network
end ReplicaRouting.Result
