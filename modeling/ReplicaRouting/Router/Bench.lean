import ReplicaRouting.Engine.Store
import ReplicaRouting.Router.Collaborators
/-!
Collaborators to try a router on: an engine in memory, a catalog of one database, and a client and a
persistence manager that answer as they are told.
-/

namespace ReplicaRouting

inductive Manner (E : Type)
  | succeed
  | fail (e : E)
  | hold

structure Bench where
  /-- The name under which the engine's database is open. -/
  database : String
  /-- The name under which the catalog holds it. -/
  catalog : Option String
  store : Engine.Store := {}
  broken : Option RouterError := none
  client : Manner TransportError := .succeed
  persistence : Manner RouterError := .succeed

namespace Bench

def remoteKey : Engine.Bytes := "remote-key".toUTF8.toList
def remoteValue : Engine.Bytes := "remote-value".toUTF8.toList

/-- What the other node has for every read. -/
def remoteReply : Engine.Read → Engine.Reply
  | .lookup .. => .value (some remoteValue)
  | _ => .entries ⟨[(remoteKey, remoteValue)]⟩

def respond (manner : Manner E) (reply : Engine.Reply) : Response E :=
  match manner with
  | .succeed => .settled (.ok reply)
  | .fail e => .settled (.error e)
  | .hold => .held

def collaborators (b : Bench) : Collaborators where
  catalog name :=
    if b.catalog = some name then .ok ⟨b.database, 0⟩
    else .error ⟨.noSuchDatabase, "database '" ++ name ++ "' does not exist locally"⟩
  engine _ request _ :=
    match b.broken with
    | some e => .settled (.error e)
    | none => .settled (.ok (b.store.answer request))
  comparators _ := [Engine.compare]
  stop _ :=
    match b.broken with
    | some e => .error e
    | none => .ok ()
  client _ _ q := respond b.client (remoteReply q)
  persistence _ _ _ := respond b.persistence .done

end Bench
end ReplicaRouting
