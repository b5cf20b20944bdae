import ReplicaRouting.Error
import ReplicaRouting.Json.Value
/-!
Counters of routing decisions, remote failures and waiters. They are words of 64 bits and wrap.
-/

namespace ReplicaRouting

structure Metrics where
  localReads : UInt64 := 0
  remoteReads : UInt64 := 0
  rejected : UInt64 := 0
  unsupported : UInt64 := 0
  writes : UInt64 := 0
  localAttachments : UInt64 := 0
  remoteNoSuchDatabase : UInt64 := 0
  remoteNoSuchIndex : UInt64 := 0
  remoteFailures : UInt64 := 0
  waitersFired : UInt64 := 0
  waitersCancelled : UInt64 := 0
  regressions : UInt64 := 0
deriving Repr, DecidableEq

namespace Metrics

def countLocalRead (m : Metrics) : Metrics := { m with localReads := m.localReads + 1 }
def countRemoteRead (m : Metrics) : Metrics := { m with remoteReads := m.remoteReads + 1 }
def countRejected (m : Metrics) : Metrics := { m with rejected := m.rejected + 1 }
def countUnsupported (m : Metrics) : Metrics := { m with unsupported := m.unsupported + 1 }
def countWrite (m : Metrics) : Metrics := { m with writes := m.writes + 1 }
def countAttachment (m : Metrics) : Metrics := { m with localAttachments := m.localAttachments + 1 }
def countCancelled (m : Metrics) : Metrics := { m with waitersCancelled := m.waitersCancelled + 1 }
def countRegression (m : Metrics) : Metrics := { m with regressions := m.regressions + 1 }

def countFired (m : Metrics) (n : Nat) : Metrics :=
  { m with waitersFired := m.waitersFired + n.toUInt64 }

/-- A failed remote read, by the code of its error; codes without a bucket count as failures. -/
def countFailure (m : Metrics) : ErrorCode → Metrics
  | .noSuchDatabase => { m with remoteNoSuchDatabase := m.remoteNoSuchDatabase + 1 }
  | .noSuchIndex => { m with remoteNoSuchIndex := m.remoteNoSuchIndex + 1 }
  | _ => { m with remoteFailures := m.remoteFailures + 1 }

def toJson (m : Metrics) : Json.Value :=
  .object [("local_reads", .nat m.localReads.toNat), ("remote_reads", .nat m.remoteReads.toNat),
    ("rejected_requests", .nat m.rejected.toNat), ("unsupported_requests", .nat m.unsupported.toNat),
    ("writes_dispatched", .nat m.writes.toNat), ("local_attachments", .nat m.localAttachments.toNat),
    ("remote_no_such_database", .nat m.remoteNoSuchDatabase.toNat),
    ("remote_no_such_index", .nat m.remoteNoSuchIndex.toNat),
    ("remote_replication_failures", .nat m.remoteFailures.toNat),
    ("waiters_fired", .nat m.waitersFired.toNat), ("waiters_cancelled", .nat m.waitersCancelled.toNat),
    ("lsn_regressions", .nat m.regressions.toNat)]

end Metrics
end ReplicaRouting
