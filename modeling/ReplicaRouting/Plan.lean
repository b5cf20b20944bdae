import ReplicaRouting.Operation
import ReplicaRouting.Role
/-!
Where an operation runs: decided from the role snapshot, the policy, the kind of operation and whether a
local handle is attached.
-/

namespace ReplicaRouting

open Net (SocketAddress)

inductive Plan
  | localHandle
  | attachFirst
  | remote (address : SocketAddress)
  | unavailable
deriving Repr, DecidableEq

namespace Plan

/-- Local execution needs this node to be the primary or a policy that leaves the access free. A handle
is attached only for the primary or where writes are free; everything else goes to the primary. -/
def choose (snapshot : Snapshot) (policy : Policy) (access : Access) (attached : Bool) : Plan :=
  match snapshot.primary with
  | none => .unavailable
  | some primary =>
    if !snapshot.selfIsPrimary && policy.atPrimary access then .remote primary
    else if attached then .localHandle
    else if snapshot.selfIsPrimary || !policy.writesAtPrimary then .attachFirst
    else .remote primary

def text : Plan → String
  | .localHandle => "local"
  | .attachFirst => "local (attach on first use)"
  | .remote address => "remote " ++ address.text
  | .unavailable => "rejected (replication unavailable)"

/-- What an operation of this kind meets under the plan. -/
def route (plan : Plan) (op : Operation) : String :=
  match plan with
  | .unavailable => plan.text
  | .remote _ =>
    if op = .insert then "write path (persistence manager)"
    else if op.isForwardable then plan.text
    else "rejected (unsupported in routed mode)"
  | _ => if op = .insert then "write path (persistence manager)" else plan.text

end Plan
end ReplicaRouting
