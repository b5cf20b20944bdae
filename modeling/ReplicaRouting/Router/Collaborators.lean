import ReplicaRouting.Engine.Read
import ReplicaRouting.Net.SocketAddress
import ReplicaRouting.Result.Context
import ReplicaRouting.Transport
/-!
Those that a router consults: the catalog of local databases, their engines, the client that reaches other
nodes and the persistence manager that takes writes. The router sees their answers only.
-/

namespace ReplicaRouting

open Net (SocketAddress)
open Result (Context)

/-- An open local database. Handles of one name may still differ. -/
structure Handle where
  name : String
  serial : Nat := 0
deriving Repr, DecidableEq

/-- An answer, or nothing yet. -/
inductive Response (E : Type)
  | settled (r : Except E Engine.Reply)
  | held

structure Collaborators where
  catalog : String → Except RouterError Handle
  engine : Handle → Engine.Request → Context → Response RouterError
  comparators : Handle → List Engine.Comparator
  stop : Handle → Except RouterError Unit
  client : SocketAddress → String → Engine.Read → Response TransportError
  persistence : Engine.Payload → Engine.InsertGroup → Context → Response RouterError

/-- A call that one of them has received. -/
inductive Call
  | catalog (name : String)
  | engine (handle : Handle) (request : Engine.Request) (context : Context)
  | comparators (handle : Handle)
  | stop (handle : Handle)
  | client (address : SocketAddress) (database : String) (q : Engine.Read)
  | persistence (payload : Engine.Payload) (group : Engine.InsertGroup) (context : Context)
deriving Repr, DecidableEq

end ReplicaRouting
