import ReplicaRouting.Router.Target
/-!
The requests that a router takes. Reads are served by the local engine or forwarded to the primary, writes
go to the persistence manager; each decision is counted and logged before the call is made.
-/

namespace ReplicaRouting

open Net (SocketAddress)
open Result (Context Outcome)

def Result.Outcome.ofRouted : Except RouterError V → Outcome V
  | .ok v => .value v
  | .error e => .failed (.router e)

def Result.Outcome.ofTransport : Except TransportError V → Outcome V
  | .ok v => .value v
  | .error e => .failed (.transport e)

namespace Router

/-- A new result with its outcome, if that is known. -/
def result (r : Router) (context : Context) (o : Option (Outcome Engine.Reply)) : Router × Nat :=
  let added := r.net.addCell ⟨some context, o⟩
  ({ r with net := added.1 }, added.2)

def failed (r : Router) (e : RouterError) (context : Context) : Router × Nat :=
  r.result context (some (.failed (.router e)))

/-- Works off what a change of the network left to do. -/
abbrev Delivery := Result.Network Engine.Reply → List (Result.Frame Engine.Reply) → Result.Network Engine.Reply

/-- Settles a result or a response, with all that waits for it. -/
def completeWith (deliver : Delivery) (r : Router) (cell : Nat) (o : Outcome Engine.Reply) : Router :=
  let settled := r.net.settle cell o
  { r with net := deliver settled.1 settled.2.1 }

def complete : Router → Nat → Outcome Engine.Reply → Router := completeWith Result.Network.deliver

def registerWith (deliver : Delivery) (r : Router) (cell : Nat) (l : Result.Listener Engine.Reply) : Router :=
  let registered := r.net.register cell l
  { r with net := deliver registered.1 registered.2 }

def register : Router → Nat → Result.Listener Engine.Reply → Router := registerWith Result.Network.deliver

def reject (r : Router) (op : Operation) (e : RouterError) (context : Context) : Router :=
  (r.count .countRejected).log (.of .routeRejected [("database", r.name), ("op", op.name),
    ("code", e.code.name), ("error", e.text), ("request_id", context.id.text)])

/-- Hands a request to a local engine. -/
def serve (r : Router) (h : Handle) (request : Engine.Request) (context : Context) : Router × Nat :=
  let r := r.record (.engine h request context)
  match r.collaborators.engine h request context with
  | .settled reply => r.result context (some (.ofRouted reply))
  | .held =>
    let made := r.result context none
    ({ made.1 with owedByEngine := made.1.owedByEngine ++ [made.2] }, made.2)

/-- The response of the client, as a cell of its own. -/
def send (r : Router) (address : SocketAddress) (database : String) (q : Engine.Read) : Router × Nat :=
  let r := r.record (.client address database q)
  match r.collaborators.client address database q with
  | .settled reply =>
    let added := r.net.addCell ⟨none, some (.ofTransport reply)⟩
    ({ r with net := added.1 }, added.2)
  | .held =>
    let added := r.net.addCell ⟨none, none⟩
    ({ r with net := added.1, owedByClient := r.owedByClient ++ [(q, added.2)] }, added.2)

/-- Sends a read to another node. The result follows the response; a failure is counted and logged before
anyone else hears of it. -/
def forwardWith (deliver : Delivery) (r : Router) (address : SocketAddress) (database : String) (q : Engine.Read)
    (context : Context) : Router × Nat :=
  let sent := r.send address database q
  let adapted := sent.1.net.addAdapted sent.2 context
  let r := { sent.1 with net := deliver adapted.1.1 adapted.1.2 }
  (r.registerWith deliver adapted.2 (.recorder ⟨database, address, context.id⟩), adapted.2)

def forward : Router → SocketAddress → String → Engine.Read → Context → Router × Nat :=
  forwardWith Result.Network.deliver

theorem forwardWith_deliver : forwardWith Result.Network.deliver = forward := rfl

def readWith (deliver : Delivery) (r : Router) (q : Engine.Read) (context : Context) : Router × Nat :=
  let resolved := r.resolve q.operation
  let r := resolved.1
  match resolved.2 with
  | .error e => (r.reject q.operation e context).failed e context
  | .ok (.engine h) =>
    let r := (r.count .countLocalRead).log (.of .routeLocal
      [("database", r.name), ("op", q.operation.name), ("request_id", context.id.text)])
    r.serve h (.read q) context
  | .ok (.remote address) =>
    let r := (r.count .countRemoteRead).log (.of .routeRemote [("database", r.name),
      ("op", q.operation.name), ("primary", address.text), ("request_id", context.id.text)])
    r.forwardWith deliver address r.name q context

def read : Router → Engine.Read → Context → Router × Nat := readWith Result.Network.deliver

/-- The handle for an operation that is never forwarded. -/
def localOnly (r : Router) (op : Operation) (context : Context) : Router × Except RouterError Handle :=
  let resolved := r.resolve op
  let r := resolved.1
  match resolved.2 with
  | .error e => (r.reject op e context, .error e)
  | .ok (.engine h) => (r, .ok h)
  | .ok (.remote address) =>
    ((r.count .countUnsupported).log (.of .routeUnsupported [("database", r.name), ("op", op.name),
      ("primary", address.text), ("request_id", context.id.text)]), .error (.unsupported op.name))

def userDefined (r : Router) (u : Engine.UserLookup) (context : Context) : Router × Nat :=
  let found := r.localOnly .userDefinedLookup context
  match found.2 with
  | .error e => found.1.failed e context
  | .ok h => found.1.serve h (.userDefined u) context

/-- The comparators of the local database. The caller gives no context, so they get a new one. -/
def comparators (r : Router) : Router × Except RouterError (List Engine.Comparator) :=
  let fresh := r.net.freshContext none
  let found := { r with net := fresh.1 }.localOnly .comparators fresh.2
  match found.2 with
  | .error e => (found.1, .error e)
  | .ok h => (found.1.record (.comparators h), .ok (found.1.collaborators.comparators h))

/-- An empty group for the router's own database. -/
def createGroup (r : Router) : Engine.InsertGroup := ⟨r.id, []⟩

/-- Hands a group to the persistence manager; whether it is applied here or elsewhere is decided there. -/
def insert (r : Router) (group : Engine.InsertGroup) (context : Context) : Router × Nat :=
  if r.stopped then r.failed (.stopped r.name) context
  else
    let asked := r.ask
    let r := asked.1
    match asked.2.primary with
    | none => (r.reject .insert .noQuorum context).failed .noQuorum context
    | some _ =>
      let r := (r.count .countWrite).log (.of .writeDispatched [("database", r.name),
        ("records", Text.numeral group.size), ("payload", Engine.Payload.insert.name),
        ("request_id", context.id.text)])
      let r := r.record (.persistence .insert group context)
      match r.collaborators.persistence .insert group context with
      | .settled reply => r.result context (some (.ofRouted reply))
      | .held =>
        let made := r.result context none
        ({ made.1 with owedByPersistence := made.1.owedByPersistence ++ [made.2] }, made.2)

def singleInsert (r : Router) (index : UInt32) (key value : Engine.Bytes) (context : Context) : Router × Nat :=
  r.insert (r.createGroup.insert index key value) context

def singleDelete (r : Router) (index : UInt32) (key : Engine.Bytes) (context : Context) : Router × Nat :=
  r.insert (r.createGroup.delete index key) context

end Router
end ReplicaRouting
