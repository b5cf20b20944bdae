import ReplicaRouting.Json.Value
/-!
Severities and the events that are logged, each with its own severity.
-/

namespace ReplicaRouting.Log

inductive Severity
  | trace
  | info
  | warn
  | error
  | fatal
deriving Repr, DecidableEq

namespace Severity

def rank : Severity → Nat
  | .trace => 0
  | .info => 1
  | .warn => 2
  | .error => 3
  | .fatal => 4

instance : LE Severity := ⟨fun a b => a.rank ≤ b.rank⟩

instance (a b : Severity) : Decidable (a ≤ b) := inferInstanceAs (Decidable (a.rank ≤ b.rank))

def name : Severity → String
  | .trace => "TRACE"
  | .info => "INFO"
  | .warn => "WARN"
  | .error => "ERROR"
  | .fatal => "FATAL"

def all : List Severity := [.trace, .info, .warn, .error, .fatal]

def ofName? (s : String) : Option Severity := all.find? (·.name = s)

end Severity

inductive Event
  | routeLocal
  | routeRemote
  | routeRejected
  | routeUnsupported
  | writeDispatched
  | localAttached
  | remoteFailed
  | listenerPanicked
  | lsnAdvanced
  | lsnRegression
  | waiterCancelled
  | waiterPanicked
  | primaryChanged
  | primaryLost
  | shutdown
deriving Repr, DecidableEq

namespace Event

def name : Event → String
  | .routeLocal => "ROUTE_LOCAL"
  | .routeRemote => "ROUTE_REMOTE"
  | .routeRejected => "ROUTE_REJECTED"
  | .routeUnsupported => "ROUTE_UNSUPPORTED"
  | .writeDispatched => "WRITE_DISPATCHED"
  | .localAttached => "LOCAL_ATTACHED"
  | .remoteFailed => "REMOTE_FAILED"
  | .listenerPanicked => "LISTENER_PANICKED"
  | .lsnAdvanced => "LSN_ADVANCED"
  | .lsnRegression => "LSN_REGRESSION"
  | .waiterCancelled => "WAITER_CANCELLED"
  | .waiterPanicked => "WAITER_PANICKED"
  | .primaryChanged => "PRIMARY_CHANGED"
  | .primaryLost => "PRIMARY_LOST"
  | .shutdown => "SHUTDOWN"

def severity : Event → Severity
  | .routeLocal | .routeRemote | .writeDispatched | .lsnAdvanced | .waiterCancelled => .trace
  | .localAttached | .primaryChanged | .shutdown => .info
  | .routeRejected | .routeUnsupported | .primaryLost => .warn
  | .remoteFailed | .listenerPanicked | .waiterPanicked => .error
  | .lsnRegression => .fatal

def isFatal (e : Event) : Bool := e.severity = .fatal

end Event
end ReplicaRouting.Log
