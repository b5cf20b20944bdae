import ReplicaRouting.Log.Line
import ReplicaRouting.Net.SocketAddress
/-!
Who is primary, as seen at one moment, and the shared role state that announces its changes.
-/

namespace ReplicaRouting

open Net (SocketAddress)

inductive Role
  | primary
  | replica
  | noQuorum
deriving Repr, DecidableEq

def Role.name : Role → String
  | .primary => "primary"
  | .replica => "replica"
  | .noQuorum => "no_quorum"

/-- The primary and whether it is this node, read at once. -/
structure Snapshot where
  primary : Option SocketAddress
  selfIsPrimary : Bool
deriving Repr, DecidableEq

namespace Snapshot

def noQuorum : Snapshot := ⟨none, false⟩

def role (s : Snapshot) : Role :=
  match s.primary, s.selfIsPrimary with
  | none, _ => .noQuorum
  | some _, true => .primary
  | some _, false => .replica

end Snapshot

structure RoleState where
  self : SocketAddress
  primary : Option SocketAddress
deriving Repr, DecidableEq

namespace RoleState

def isSelf (s : RoleState) (a : SocketAddress) : Bool := a = s.self

def snapshot (s : RoleState) : Snapshot := ⟨s.primary, s.primary.any s.isSelf⟩

/-- Announces a primary; an event is logged if it is not the current one. -/
def setPrimary (s : RoleState) (a : SocketAddress) : RoleState × List Log.Record :=
  if s.primary = some a then (s, [])
  else
    ({ s with primary := some a },
      [.of .primaryChanged [("local", s.self.text), ("previous", (s.primary.map (·.text)).getD ""),
        ("primary", a.text)]])

/-- Withdraws the primary; an event is logged if there was one. -/
def clearPrimary (s : RoleState) : RoleState × List Log.Record :=
  match s.primary with
  | none => (s, [])
  | some p => ({ s with primary := none }, [.of .primaryLost [("local", s.self.text), ("previous", p.text)]])

end RoleState
end ReplicaRouting
