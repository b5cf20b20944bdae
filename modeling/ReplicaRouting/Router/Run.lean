import ReplicaRouting.Router.Request
/-!
Runs of a router: requests of its callers, news from the oracle, and answers of the collaborators that
come late.
-/

namespace ReplicaRouting

open Net (SocketAddress)
open Result (Outcome TokenValue)

inductive RouterAction
  | read (q : Engine.Read) (token : Option TokenValue)
  | userDefined (u : Engine.UserLookup) (token : Option TokenValue)
  | comparators
  | insert (group : Engine.InsertGroup) (token : Option TokenValue)
  | singleInsert (index : UInt32) (key value : Engine.Bytes) (token : Option TokenValue)
  | singleDelete (index : UInt32) (key : Engine.Bytes) (token : Option TokenValue)
  /-- A read sent to a node of the caller's choice. -/
  | forward (address : SocketAddress) (database : String) (q : Engine.Read) (token : Option TokenValue)
  | plan (op : Operation)
  | resolve (op : Operation)
  | role
  | shutdown
  | setPrimary (address : SocketAddress)
  | clearPrimary
  /-- From here on the collaborators answer in another way. -/
  | replace (collaborators : Collaborators)
  | interrupt (i : Interruption)
  /-- The nth answer owed by a collaborator arrives, or is given up. -/
  | engineAnswers (n : Nat) (reply : Option (Except RouterError Engine.Reply))
  | clientAnswers (n : Nat) (reply : Option (Except TransportError Engine.Reply))
  | persistenceAnswers (n : Nat) (reply : Option (Except RouterError Engine.Reply))
  | listen (cell : Nat) (tag : String)
  | poll (cell : Nat)

inductive RouterAnswer
  | nothing
  | result (cell : Nat) (outcome : Option (Outcome Engine.Reply))
  | outcome (o : Option (Outcome Engine.Reply))
  | comparators (r : Except RouterError (List Engine.Comparator))
  | plan (p : Plan)
  | target (t : Except RouterError Target)
  | role (s : Snapshot)
  | stopped (r : Except RouterError Unit)
  | flag (b : Bool)
  | dropped
  | nothingOwed

namespace Router

/-- A request with a new context that carries the token. -/
def withContext (r : Router) (token : Option TokenValue)
    (request : Router → Result.Context → Router × Nat) : Router × RouterAnswer :=
  let fresh := r.net.freshContext token
  let made := request { r with net := fresh.1 } fresh.2
  (made.1, .result made.2 (made.1.net.outcomeAt made.2))

/-- An answer that is still owed comes in; giving up abandons the cell. -/
def settleOwedWith (deliver : Delivery) (r : Router) (cell : Option Nat) (o : Option (Outcome Engine.Reply)) :
    Router × RouterAnswer :=
  match cell with
  | none => (r, .nothingOwed)
  | some cell =>
    if (r.net.outcomeAt cell).isSome then (r, .nothingOwed)
    else
      match o with
      | some o => (r.completeWith deliver cell o, .flag true)
      | none => (r.completeWith deliver cell (.abandoned (r.net.contextAt cell)), .dropped)

def settleOwed : Router → Option Nat → Option (Outcome Engine.Reply) → Router × RouterAnswer :=
  settleOwedWith Result.Network.deliver

def logAll (r : Router) (records : List Log.Record) : Router := records.foldl log r

def performWith (deliver : Delivery) (r : Router) : RouterAction → Router × RouterAnswer
  | .read q token => r.withContext token fun r context => r.readWith deliver q context
  | .userDefined u token => r.withContext token fun r context => r.userDefined u context
  | .comparators =>
    let done := r.comparators
    (done.1, .comparators done.2)
  | .insert group token => r.withContext token fun r context => r.insert group context
  | .singleInsert index key value token =>
    r.withContext token fun r context => r.singleInsert index key value context
  | .singleDelete index key token => r.withContext token fun r context => r.singleDelete index key context
  | .forward address database q token =>
    r.withContext token fun r context => r.forwardWith deliver address database q context
  | .plan op =>
    let done := r.plan op
    (done.1, .plan done.2)
  | .resolve op =>
    let done := r.resolve op
    (done.1, .target done.2)
  | .role =>
    let asked := r.ask
    (asked.1, .role asked.2)
  | .shutdown =>
    let done := r.shutdown
    (done.1, .stopped done.2)
  | .setPrimary address =>
    let news := r.oracle.setPrimary address
    ({ r with oracle := news.1 }.logAll news.2, .nothing)
  | .clearPrimary =>
    let news := r.oracle.clearPrimary
    ({ r with oracle := news.1 }.logAll news.2, .nothing)
  | .replace collaborators => ({ r with collaborators := collaborators }, .nothing)
  | .interrupt i => ({ r with interruption := some i }, .nothing)
  | .engineAnswers n reply => r.settleOwedWith deliver r.owedByEngine[n]? (reply.map .ofRouted)
  | .clientAnswers n reply => r.settleOwedWith deliver (r.owedByClient[n]?.map (·.2)) (reply.map .ofTransport)
  | .persistenceAnswers n reply => r.settleOwedWith deliver r.owedByPersistence[n]? (reply.map .ofRouted)
  | .listen cell tag => (r.registerWith deliver cell (.script tag [] false), .nothing)
  | .poll cell => (r, .outcome (r.net.outcomeAt cell))

def perform : Router → RouterAction → Router × RouterAnswer := performWith Result.Network.deliver

def run (r : Router) : List RouterAction → Router × List RouterAnswer
  | [] => (r, [])
  | a :: as =>
    let done := r.perform a
    let rest := done.1.run as
    (rest.1, done.2 :: rest.2)

end Router
end ReplicaRouting
