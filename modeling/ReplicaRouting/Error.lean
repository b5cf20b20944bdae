import ReplicaRouting.Text.Quoted
/-!
Why a routed request fails. Each error carries a message; codes are stable names for programs.
-/

namespace ReplicaRouting

inductive ErrorCode
  | replicationUnavailable
  | noSuchDatabase
  | noSuchIndex
  | replicationFailure
  | unsupportedOperation
  | shutdown
deriving Repr, DecidableEq

namespace ErrorCode

def name : ErrorCode → String
  | .replicationUnavailable => "REPLICATION_UNAVAILABLE"
  | .noSuchDatabase => "NO_SUCH_DATABASE"
  | .noSuchIndex => "NO_SUCH_INDEX"
  | .replicationFailure => "REPLICATION_FAILURE"
  | .unsupportedOperation => "UNSUPPORTED_OPERATION"
  | .shutdown => "SHUTDOWN"

def all : List ErrorCode :=
  [.replicationUnavailable, .noSuchDatabase, .noSuchIndex, .replicationFailure, .unsupportedOperation,
    .shutdown]

def ofName? (s : String) : Option ErrorCode := all.find? (·.name = s)

end ErrorCode

structure RouterError where
  code : ErrorCode
  message : String
deriving Repr, DecidableEq

namespace RouterError

def noQuorum : RouterError :=
  ⟨.replicationUnavailable, "a majority of replicas is currently not reachable, no primary is known"⟩

/-- The operation exists on a local database only. -/
def unsupported (operation : String) : RouterError :=
  ⟨.unsupportedOperation, operation ++ " cannot be forwarded to a remote primary"⟩

/-- Nobody is left who could complete the request. -/
def abandoned : RouterError := ⟨.replicationFailure, "request abandoned before completion"⟩

def stopped (database : String) : RouterError :=
  ⟨.shutdown, "database '" ++ database ++ "' has been shut down"⟩

def text (e : RouterError) : String :=
  (match e.code with
    | .replicationUnavailable => "Replication unavailable: "
    | .noSuchDatabase => "No such database: "
    | .noSuchIndex => "No such index: "
    | .replicationFailure => "Replication failure: "
    | .unsupportedOperation => "Operation not supported in routed mode: "
    | .shutdown => "Database is shut down: ") ++ e.message

/-- Whether the same request may succeed later. -/
def isRetryable (e : RouterError) : Bool :=
  e.code = .replicationUnavailable || e.code = .replicationFailure

def inspect (e : RouterError) : String :=
  (match e.code with
    | .replicationUnavailable => "ReplicationUnavailable"
    | .noSuchDatabase => "NoSuchDatabase"
    | .noSuchIndex => "NoSuchIndex"
    | .replicationFailure => "ReplicationFailure"
    | .unsupportedOperation => "UnsupportedOperation"
    | .shutdown => "Shutdown") ++ "(" ++ Text.quote e.message ++ ")"

end RouterError
end ReplicaRouting
