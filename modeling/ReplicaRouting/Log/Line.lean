import ReplicaRouting.Log.Event
/-!
Log records and their lines: one JSON object of strings, the event first, then the severity, the time
stamp and the fields by key. A minimum severity picks the records that are written.
-/

namespace ReplicaRouting.Log

structure Record where
  severity : Severity
  event : String
  fields : List (String × String)
deriving Repr, DecidableEq

def Record.of (e : Event) (fields : List (String × String)) : Record := ⟨e.severity, e.name, fields⟩

/-- Fields by key, equal keys in the order given. -/
def sortFields (fields : List (String × String)) : List (String × String) :=
  fields.mergeSort fun a b => decide (¬ b.1 < a.1)

def Record.members (stamp : String) (r : Record) : List (String × String) :=
  ("event", r.event) :: ("severity", r.severity.name) :: ("ts", stamp) :: sortFields r.fields

def Record.text (stamp : String) (r : Record) : List Char :=
  (Json.Value.object ((r.members stamp).map fun m => (m.1, .string m.2))).render

def Record.line (stamp : String) (r : Record) : List Char := r.text stamp ++ ['\n']

inductive Stream
  | out
  | err
deriving Repr, DecidableEq

def Severity.stream (s : Severity) : Stream := if Severity.error ≤ s then .err else .out

def Severity.enabled (minimum s : Severity) : Bool := minimum ≤ s

/-- The records that a logger with this minimum writes to a stream. -/
def written (minimum : Severity) (stream : Stream) (records : List Record) : List Record :=
  records.filter fun r => minimum.enabled r.severity && r.severity.stream = stream

def Stream.lines (stream : Stream) (minimum : Severity) (stamp : String) (records : List Record) :
    List String :=
  (written minimum stream records).map fun r => String.ofList (r.text stamp)

end ReplicaRouting.Log
