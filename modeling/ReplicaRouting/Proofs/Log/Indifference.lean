import ReplicaRouting.Proofs.Router.Muted
import ReplicaRouting.Proofs.WaitList.Muted
/-!
Observability influences nothing: routers, wait lists, networks of results and role states run alike under
every minimum severity, and write the same lines down to it.
-/

namespace ReplicaRouting

open Net (SocketAddress)

namespace RoleState

inductive News
  | announced (a : SocketAddress)
  | withdrawn

def told (s : RoleState) : News → RoleState × List Log.Record
  | .announced a => s.setPrimary a
  | .withdrawn => s.clearPrimary

abbrev Logged := RoleState × List Log.Record

def hear (x : Logged) (news : News) : Logged := ((x.1.told news).1, x.2 ++ (x.1.told news).2)

def run (x : Logged) : List News → Logged × List Snapshot
  | [] => (x, [])
  | news :: rest =>
    let heard := hear x news
    let later := run heard rest
    (later.1, heard.1.snapshot :: later.2)

def thin (minimum : Log.Severity) (x : Logged) : Logged :=
  (x.1, x.2.filter fun r => minimum.enabled r.severity)

def runAt (minimum : Log.Severity) (x : Logged) : List News → Logged × List Snapshot
  | [] => (thin minimum x, [])
  | news :: rest =>
    let heard := thin minimum (hear x news)
    let later := runAt minimum heard rest
    (later.1, heard.1.snapshot :: later.2)

def muting : Log.Muting Logged where
  lines x := x.2
  thin := thin
  lines_thin _ _ := rfl
  thin_thin {s t} h x := by
    refine congrArg (x.1, ·) ?_
    rw [thin, List.filter_filter]
    apply List.filter_congr
    intro r _
    cases ht : t.enabled r.severity with
    | false => rfl
    | true => simp [Log.Severity.enabled_of_le h ht]
  thin_trace x := by
    refine congrArg (x.1, ·) (List.filter_eq_self.mpr ?_)
    intro r _
    exact Log.Severity.trace_enabled r.severity

theorem thin_hear (minimum : Log.Severity) (x : Logged) (news : News) :
    thin minimum (hear (thin minimum x) news) = thin minimum (hear x news) := by
  simp only [thin, hear, List.filter_append, List.filter_filter, Bool.and_self]

theorem runAt_thin (minimum : Log.Severity) (x : Logged) (news : List News) :
    runAt minimum (thin minimum x) news = runAt minimum x news := by
  cases news with
  | nil => exact congrArg (·, []) (muting.thin_thin (Nat.le_refl _) x)
  | cons news rest => simp only [runAt, thin_hear]

theorem runAt_eq (minimum : Log.Severity) (x : Logged) (news : List News) :
    runAt minimum x news = (muting.thin minimum (run x news).1, (run x news).2) := by
  induction news generalizing x with
  | nil => rfl
  | cons news rest ih =>
    rw [runAt, run]
    dsimp only
    rw [runAt_thin, ih]
    rfl

end RoleState

namespace Log

/-- Runs of a router, a wait list, a network of results and a role state, with any two minimum severities:
the same answers and the same states, but for the lines below the higher minimum. In the state are the calls
of the collaborators, the callbacks and listeners in their order, and the counters. On each stream the run
with the higher minimum writes the lines of the other that it lets through; errors and fatal lines go to the
error stream, all others to the output. -/
theorem minimum_influences_nothing :
    (∀ (r : Router) (as : List RouterAction),
      Router.muting.Indifferent (r.run as) fun minimum => r.runAt minimum as) ∧
    (∀ (s : WaitList.State) (cs : List WaitList.Call),
      WaitList.State.muting.Indifferent (s.calls cs) fun minimum => s.callsAt minimum cs) ∧
    (∀ (V : Type) (n : Result.Network V) (as : List (Result.Action V)),
      Result.Network.muting.Indifferent (n.calls as) fun minimum => n.callsAt minimum as) ∧
    (∀ (x : RoleState.Logged) (news : List RoleState.News),
      RoleState.muting.Indifferent (RoleState.run x news) fun minimum => RoleState.runAt minimum x news) ∧
    ∀ s : Severity, s.stream = if s = .error ∨ s = .fatal then .err else .out := by
  refine ⟨fun r as => ?_, fun s cs => ?_, fun V n as => ?_, fun x news => ?_, fun s => ?_⟩
  · exact Router.muting.indifferent fun minimum => r.runAt_eq minimum as
  · exact WaitList.State.muting.indifferent fun minimum => s.callsAt_eq minimum cs
  · exact Result.Network.muting.indifferent fun minimum => n.callsAt_eq minimum as
  · exact RoleState.muting.indifferent fun minimum => RoleState.runAt_eq minimum x news
  · cases s <;> decide

/-- A callback that cancels and panics, then a refused advance, at the highest minima. -/
example :
    let cs : List WaitList.Call := [.act (.register "a" ⟨1, 2⟩ [.cancel "b"] true),
      .act (.register "b" ⟨1, 3⟩ [] false), .advance ⟨1, 2⟩, .advance ⟨1, 1⟩]
    let events (minimum : Severity) := (WaitList.State.muting.lines
      ((WaitList.State.opened .zero {}).callsAt minimum cs).1).map (·.event)
    events .trace = ["WAITER_CANCELLED", "WAITER_PANICKED", "LSN_ADVANCED", "LSN_REGRESSION"] ∧
      events .error = ["WAITER_PANICKED", "LSN_REGRESSION"] ∧ events .fatal = ["LSN_REGRESSION"] := by
  decide +kernel

end Log
end ReplicaRouting
