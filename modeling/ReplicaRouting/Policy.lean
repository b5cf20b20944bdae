import ReplicaRouting.Json.Record
import ReplicaRouting.Text.Blank
/-!
Consistency policies: whether reads and writes have to be served by the primary.
-/

namespace ReplicaRouting

inductive Access
  | read
  | write
deriving Repr, DecidableEq

namespace Access

def name : Access → String
  | .read => "read"
  | .write => "write"

def reader : Json.Reader Access :=
  Json.readVariant [("read", .read), ("write", .write)] "`read` or `write`"

def ofJson (s : String) : Except Json.ReadError Access := reader.run s

def toJson (a : Access) : Json.Value := .string a.name

end Access

structure Policy where
  readsAtPrimary : Bool
  writesAtPrimary : Bool
deriving Repr, DecidableEq

namespace Policy

def primaryOnly : Policy := ⟨true, true⟩
def writesToPrimary : Policy := ⟨false, true⟩
def unrestricted : Policy := ⟨false, false⟩

instance : Inhabited Policy := ⟨primaryOnly⟩

/-- Whether this kind of access has to be served by the primary. -/
def atPrimary (p : Policy) : Access → Bool
  | .read => p.readsAtPrimary
  | .write => p.writesAtPrimary

/-- The preset with these flags; one combination has none. -/
def preset? : Policy → Option String
  | ⟨true, true⟩ => some "primary_only"
  | ⟨false, true⟩ => some "writes_to_primary"
  | ⟨false, false⟩ => some "unrestricted"
  | ⟨true, false⟩ => none

def name (p : Policy) : String := p.preset?.getD "custom"

def ofName? (s : String) : Option Policy :=
  if s = "primary_only" ∨ s = "master_only" then some primaryOnly
  else if s = "writes_to_primary" then some writesToPrimary
  else if s = "unrestricted" then some unrestricted
  else none

/-- A preset name as far as it counts: without blanks around it and in lower case. -/
def fold (s : String) : String := String.ofList ((Text.trim s.toList).map Char.toLower)

/-- Reads a preset name; the complaint quotes the folded name. -/
def parse (s : String) : Except String Policy :=
  match ofName? (fold s) with
  | some p => .ok p
  | none =>
    .error ("unknown policy " ++ Text.quote (fold s) ++
      ", expected primary_only, writes_to_primary or unrestricted")

def inspect (p : Policy) : String :=
  "ConsistencyPolicy \x7b reads_require_primary: " ++ (if p.readsAtPrimary then "true" else "false") ++
    ", writes_require_primary: " ++ (if p.writesAtPrimary then "true" else "false") ++ " \x7d"

def toJson (p : Policy) : Json.Value :=
  .object [("reads_require_primary", .bool p.readsAtPrimary),
    ("writes_require_primary", .bool p.writesAtPrimary)]

def fields : List (Json.Field Bool) :=
  [⟨"reads_require_primary", Json.readBool, none⟩, ⟨"writes_require_primary", Json.readBool, none⟩]

def reader : Json.Reader Policy := fun s => do
  match ← Json.readRecord "ConsistencyPolicy" fields s with
  | ([reads, writes], s) => return (⟨reads, writes⟩, s)
  | _ => throw .expectedValue

def ofJson (s : String) : Except Json.ReadError Policy := reader.run s

/-- The flags as a value already read: an object that names each flag once, or a list of the two. -/
def ofValue? : Json.Value → Option Policy
  | .array [.bool reads, .bool writes] => some ⟨reads, writes⟩
  | .object members =>
    match members.filter (·.1 = "reads_require_primary"), members.filter (·.1 = "writes_require_primary") with
    | [(_, .bool reads)], [(_, .bool writes)] => some ⟨reads, writes⟩
    | _, _ => none
  | _ => none

end Policy
end ReplicaRouting
