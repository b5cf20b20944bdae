import ReplicaRouting.Result.Context
import ReplicaRouting.Transport
/-!
How a request ends: with a value, or with a fault of its own side. On its way from a response to a result
the fault of the transport becomes the one that the caller of the router knows.
-/

namespace ReplicaRouting.Result

/-- A router error on a result, a transport error on a response. -/
inductive Fault
  | router (e : RouterError)
  | transport (e : TransportError)
deriving Repr, DecidableEq

/-- As the caller of the router sees it. -/
def Fault.routed : Fault → RouterError
  | .router e => e
  | .transport e => e.toRouterError

inductive Outcome (V : Type)
  | value (v : V)
  | failed (f : Fault)
deriving Repr, DecidableEq

/-- The outcome on the caller's side of the adapter. -/
def Outcome.adapt : Outcome V → Outcome V
  | .value v => .value v
  | .failed f => .failed (.router f.routed)

/-- What a cell becomes when nobody is left to complete it: results have a context, responses none. -/
def Outcome.abandoned (context : Option Context) : Outcome V :=
  match context with
  | some _ => .failed (.router .abandoned)
  | none => .failed (.transport .abandoned)

end ReplicaRouting.Result
