import ReplicaRouting.Config.Router
import ReplicaRouting.Plan
import ReplicaRouting.Result.Delivery
import ReplicaRouting.Router.Collaborators
import ReplicaRouting.Router.Oracle
/-!
A router and the choice of the target of a call. Who is primary is asked anew for every call. A local
handle is attached when it is first needed and stays until the router is shut down.
-/

namespace ReplicaRouting

open Net (SocketAddress)
open Result (Context)

/-- What happens to a router while it waits for the answer of the oracle. -/
inductive Interruption
  | shutdown
  | resolve (op : Operation)
deriving Repr, DecidableEq

structure Router where
  name : String
  id : UInt32
  policy : Policy
  oracle : Oracle
  collaborators : Collaborators
  handle : Option Handle := none
  stopped : Bool := false
  /-- Due with the next question to the oracle. -/
  interruption : Option Interruption := none
  /-- The results handed out, with the counters and the log. -/
  net : Result.Network Engine.Reply := {}
  calls : List Call := []
  /-- Answers still owed, in the order of the calls. -/
  owedByEngine : List Nat := []
  owedByClient : List (Engine.Read × Nat) := []
  owedByPersistence : List Nat := []

inductive Target
  | engine (handle : Handle)
  | remote (address : SocketAddress)
deriving Repr, DecidableEq

def Target.inspect : Target → String
  | .engine handle => "Local(" ++ Text.quote handle.name ++ ")"
  | .remote address => "Remote(" ++ address.text ++ ")"

namespace Router

def log (r : Router) (record : Log.Record) : Router := { r with net := r.net.log record }

def count (r : Router) (f : Metrics → Metrics) : Router := { r with net.metrics := f r.net.metrics }

def record (r : Router) (c : Call) : Router := { r with calls := r.calls ++ [c] }

/-- A router without a local handle; one is attached when a call first needs it. -/
def make (name : String) (id : UInt32) (policy : Policy) (oracle : Oracle) (collaborators : Collaborators) :
    Router := { name, id, policy, oracle, collaborators }

/-- A router around a database that is already open; it takes the database's name. -/
def withHandle (handle : Handle) (id : UInt32) (policy : Policy) (oracle : Oracle)
    (collaborators : Collaborators) : Router :=
  { make handle.name id policy oracle collaborators with handle := some handle }

/-- A router of a checked configuration. -/
def ofConfig (c : Config) (oracle : Oracle) (collaborators : Collaborators) : Except ConfigError Router := do
  c.validate
  let policy ← c.resolvedPolicy
  return make c.database c.databaseId policy oracle collaborators

/-- Releases the local handle; from then on calls are refused. -/
def shutdown (r : Router) : Router × Except RouterError Unit :=
  if r.stopped then (r, .ok ())
  else
    let attached := r.handle
    let r := { r with stopped := true, handle := none }.log (.of .shutdown
      [("database", r.name), ("local_attached", if attached.isSome then "true" else "false")])
    match attached with
    | some h => (r.record (.stop h), r.collaborators.stop h)
    | none => (r, .ok ())

/-- The attached handle, or a new one from the catalog. -/
def attach (r : Router) : Router × Except RouterError Handle :=
  if r.stopped then (r, .error (.stopped r.name))
  else
    match r.handle with
    | some h => (r, .ok h)
    | none =>
      let asked := r.record (.catalog r.name)
      match r.collaborators.catalog r.name with
      | .error e => (asked, .error e)
      | .ok h =>
        (({ asked with handle := some h }.count .countAttachment).log
          (.of .localAttached [("database", r.name)]), .ok h)

/-- Follows the plan with the handle that was attached when the call began. -/
def follow (r : Router) (handle : Option Handle) (plan : Plan) : Router × Except RouterError Target :=
  match plan, handle with
  | .unavailable, _ => (r, .error .noQuorum)
  | .remote address, _ => (r, .ok (.remote address))
  | .localHandle, some h => (r, .ok (.engine h))
  | _, _ =>
    let attached := r.attach
    (attached.1, attached.2.map .engine)

/-- The target of an operation; `ask` asks the oracle. -/
def resolveWith (ask : Router → Router × Snapshot) (r : Router) (op : Operation) :
    Router × Except RouterError Target :=
  if r.stopped then (r, .error (.stopped r.name))
  else
    let asked := ask r
    asked.1.follow r.handle (Plan.choose asked.2 r.policy op.access r.handle.isSome)

/-- What is due happens, once. -/
def interrupt (r : Router) : Router :=
  match r.interruption with
  | none => r
  | some .shutdown => { r with interruption := none }.shutdown.1
  | some (.resolve op) => ({ r with interruption := none }.resolveWith (fun r => (r, r.oracle.snapshot)) op).1

def ask (r : Router) : Router × Snapshot :=
  let r := r.interrupt
  (r, r.oracle.snapshot)

def resolve (r : Router) (op : Operation) : Router × Except RouterError Target := r.resolveWith ask op

/-- The plan of an operation right now; nothing is attached. -/
def plan (r : Router) (op : Operation) : Router × Plan :=
  let asked := r.ask
  (asked.1, .choose asked.2 asked.1.policy op.access asked.1.handle.isSome)

def inspect (r : Router) : String :=
  let flag (b : Bool) := if b then "true" else "false"
  "RoutedDatabase \x7b name: " ++ Text.quote r.name ++ ", id: " ++ Text.numeral r.id.toNat ++ ", policy: " ++
    r.policy.inspect ++ ", local_attached: " ++ flag r.handle.isSome ++ ", shut_down: " ++ flag r.stopped ++
    " \x7d"

end Router
end ReplicaRouting
