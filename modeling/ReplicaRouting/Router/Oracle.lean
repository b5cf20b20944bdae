import ReplicaRouting.Role
/-!
Where a router learns who is primary: from the shared role state, or from an oracle of its own that may
know this node under several addresses.
-/

namespace ReplicaRouting

open Net (SocketAddress)

inductive Oracle
  | shared (state : RoleState)
  | custom (primary : Option SocketAddress) (own : List SocketAddress)
deriving Repr, DecidableEq

namespace Oracle

def primary : Oracle → Option SocketAddress
  | .shared state => state.primary
  | .custom primary _ => primary

def isSelf (o : Oracle) (a : SocketAddress) : Bool :=
  match o with
  | .shared state => state.isSelf a
  | .custom _ own => own.contains a

def snapshot (o : Oracle) : Snapshot := ⟨o.primary, o.primary.any o.isSelf⟩

/-- Only the shared state logs its changes. -/
def setPrimary (o : Oracle) (a : SocketAddress) : Oracle × List Log.Record :=
  match o with
  | .shared state =>
    let (state, records) := state.setPrimary a
    (.shared state, records)
  | .custom _ own => (.custom (some a) own, [])

def clearPrimary : Oracle → Oracle × List Log.Record
  | .shared state =>
    let (state, records) := state.clearPrimary
    (.shared state, records)
  | .custom _ own => (.custom none own, [])

end Oracle
end ReplicaRouting
