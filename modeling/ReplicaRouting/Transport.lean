import ReplicaRouting.Error
import ReplicaRouting.Text.Numeral
/-!
Failures of remote calls, and the one place where they become routing errors.
-/

namespace ReplicaRouting

/-- Error codes of the wire; a number without a name is kept. -/
inductive WireCode
  | fileUnavailable
  | serviceUnavailable
  | logUnavailable
  | databaseUnavailable
  | entryUnavailable
  | busy
  | unknown (n : UInt32)
deriving Repr, DecidableEq

namespace WireCode

def ofNumber (n : UInt32) : WireCode :=
  match n.toNat with
  | 1 => .fileUnavailable
  | 2 => .serviceUnavailable
  | 3 => .logUnavailable
  | 4 => .databaseUnavailable
  | 5 => .entryUnavailable
  | 6 => .busy
  | _ => .unknown n

def number : WireCode → UInt32
  | .fileUnavailable => 1
  | .serviceUnavailable => 2
  | .logUnavailable => 3
  | .databaseUnavailable => 4
  | .entryUnavailable => 5
  | .busy => 6
  | .unknown n => n

def name : WireCode → String
  | .fileUnavailable => "FILE_UNAVAILABLE"
  | .serviceUnavailable => "SERVICE_UNAVAILABLE"
  | .logUnavailable => "LOG_UNAVAILABLE"
  | .databaseUnavailable => "DB_UNAVAILABLE"
  | .entryUnavailable => "ENTRY_UNAVAILABLE"
  | .busy => "BUSY"
  | .unknown _ => "UNKNOWN"

def text : WireCode → String
  | .unknown n => "UNKNOWN(" ++ Text.numeral n.toNat ++ ")"
  | c => c.name

def inspect : WireCode → String
  | .fileUnavailable => "FileUnavailable"
  | .serviceUnavailable => "ServiceUnavailable"
  | .logUnavailable => "LogUnavailable"
  | .databaseUnavailable => "DbUnavailable"
  | .entryUnavailable => "EntryUnavailable"
  | .busy => "Busy"
  | .unknown n => "Unknown(" ++ Text.numeral n.toNat ++ ")"

end WireCode

inductive TransportError
  | remote (code : WireCode) (message : String)
  | lost (message : String)
  | timeout (milliseconds : UInt64)
  | closed
  | abandoned
deriving Repr, DecidableEq

namespace TransportError

def code? : TransportError → Option WireCode
  | .remote code _ => some code
  | _ => none

def text : TransportError → String
  | .remote code message => "Remote error " ++ code.text ++ ": " ++ message
  | .lost message => "Transport I/O error: " ++ message
  | .timeout ms => "Request timed out after " ++ Text.numeral ms.toNat ++ " ms"
  | .closed => "Connection closed"
  | .abandoned => "Request abandoned before a response arrived"

/-- The routing error that a caller sees. -/
def toRouterError : TransportError → RouterError
  | .remote .databaseUnavailable message => ⟨.noSuchDatabase, message⟩
  | .remote .entryUnavailable message => ⟨.noSuchIndex, message⟩
  | e => ⟨.replicationFailure, e.text⟩

end TransportError
end ReplicaRouting
