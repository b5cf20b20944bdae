import ReplicaRouting.Config.Setting
import ReplicaRouting.Net.AddressReader
/-!
Configurations of a router: written as one JSON object, read back and checked.
-/

namespace ReplicaRouting

open Net (SocketAddress)

structure Config where
  database : String
  databaseId : UInt32 := 0
  policy : PolicySetting := .preset "primary_only"
  localAddress : String
  notifierThread : String := "lsn-notifier"
deriving Repr, DecidableEq

namespace Config

def make (database : String) (address : SocketAddress) : Config :=
  { database := database, localAddress := address.text }

def withPolicy (c : Config) (p : Policy) : Config := { c with policy := .ofPolicy p }

def withDatabaseId (c : Config) (id : UInt32) : Config := { c with databaseId := id }

def resolvedPolicy (c : Config) : Except ConfigError Policy := c.policy.resolve

/-- Complaint about a text in the place of an address. -/
def notAnAddress (what text : String) : String :=
  what ++ " '" ++ text ++ "' is not a socket address: invalid socket address syntax"

def address (c : Config) : Except ConfigError SocketAddress :=
  match SocketAddress.parse? c.localAddress with
  | some a => .ok a
  | none => .error (.invalid (notAnAddress "local_address" c.localAddress))

def validate (c : Config) : Except ConfigError Unit := do
  if !Text.hasInk c.database then throw (.invalid "database_name must not be empty")
  if !Text.hasInk c.notifierThread then throw (.invalid "notifier_thread_name must not be empty")
  let _ ← c.resolvedPolicy
  let _ ← c.address

def toJson (c : Config) : Json.Value :=
  .object [("database_name", .string c.database), ("database_id", .nat c.databaseId.toNat),
    ("policy", c.policy.toJson), ("local_address", .string c.localAddress),
    ("notifier_thread_name", .string c.notifierThread)]

inductive Part
  | text (s : String)
  | number (n : Nat)
  | policy (p : PolicySetting)

def readPart (read : Json.Reader α) (part : α → Part) : Json.Reader Part := fun s =>
  (read s).map fun (v, s) => (part v, s)

def fields : List (Json.Field Part) :=
  [⟨"database_name", readPart Json.readText .text, none⟩,
    ⟨"database_id", readPart (Json.readNat UInt32.size "u32") .number, some (.number 0)⟩,
    ⟨"policy", readPart PolicySetting.reader .policy, some (.policy (.preset "primary_only"))⟩,
    ⟨"local_address", readPart Json.readText .text, none⟩,
    ⟨"notifier_thread_name", readPart Json.readText .text, some (.text "lsn-notifier")⟩]

def reader : Json.Reader Config := fun s => do
  match ← Json.readRecord "RouterConfig" fields s with
  | ([.text database, .number id, .policy policy, .text address, .text thread], s) =>
    return (⟨database, id.toUInt32, policy, address, thread⟩, s)
  | _ => throw .expectedValue

def ofJson (s : String) : Except ConfigError Config := do
  let c ← (reader.run s).mapError fun e => .malformed e.message
  c.validate
  return c

end Config
end ReplicaRouting
