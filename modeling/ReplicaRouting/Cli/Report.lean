import ReplicaRouting.Cli.Arguments
import ReplicaRouting.Config.File
import ReplicaRouting.Plan
/-!
What the commands report: one line with a JSON object, the same for a person and for a program. Members
stand in the order of their names.
-/

namespace ReplicaRouting.Cli

open Net (SocketAddress)

inductive Fault
  | config
  | argument
  | output
deriving Repr, DecidableEq

def Fault.name : Fault → String
  | .config => "ROUTER_CLI_CONFIG_ERROR"
  | .argument => "ROUTER_CLI_INVALID_ARGUMENT"
  | .output => "ROUTER_CLI_IO_ERROR"

structure Error where
  fault : Fault
  message : String
deriving Repr, DecidableEq

namespace Error

def ofConfig (e : ConfigError) : Error := ⟨.config, e.message⟩

/-- A line that could not be put together. -/
def ofJson (e : Json.ReadError) : Error := ⟨.output, "JSON error: " ++ e.message⟩

def text (e : Error) : String := e.fault.name ++ ": " ++ e.message

end Error

/-- Where each operation of a configured router goes. -/
structure RoutingTable where
  database : String
  policy : Policy
  snapshot : Snapshot
  routes : List (Operation × String)
deriving Repr, DecidableEq

namespace RoutingTable

/-- The table under a primary; without one there is no quorum. -/
def ofConfig (c : Config) (primary : Option SocketAddress) (attached : Bool) :
    Except ConfigError RoutingTable := do
  let policy ← c.resolvedPolicy
  let address ← c.address
  let snapshot : Snapshot := ⟨primary, primary = some address⟩
  return ⟨c.database, policy, snapshot, Operation.all.map fun op =>
    (op, (Plan.choose snapshot policy op.access attached).route op)⟩

def toJson (t : RoutingTable) : Json.Value :=
  .object [("database_name", .string t.database), ("policy", .string t.policy.name),
    ("primary", match t.snapshot.primary with | some p => .string p.text | none => .null),
    ("role", .string t.snapshot.role.name),
    ("routes", .array (t.routes.map fun (op, route) =>
      .object [("operation", .string op.name), ("route", .string route)]))]

end RoutingTable

/-- The checked configuration in its resolved form. -/
def describeConfig (c : Config) : Except ConfigError Json.Value := do
  let policy ← c.resolvedPolicy
  let address ← c.address
  return .object [("database_id", .nat c.databaseId.toNat), ("database_name", .string c.database),
    ("local_address", .string address.text), ("notifier_thread_name", .string c.notifierThread),
    ("policy", .string policy.name), ("reads_require_primary", .bool policy.readsAtPrimary),
    ("writes_require_primary", .bool policy.writesAtPrimary)]

/-- The primary named on the command line. -/
def readPrimary : Option String → Except Error (Option SocketAddress)
  | none => .ok none
  | some text =>
    match SocketAddress.parse? text with
    | some a => .ok (some a)
    | none => .error ⟨.argument, Config.notAnAddress "--primary" text⟩

/-- What a command finds, given the file that it names. -/
def Command.answer (command : Command) (file : FileState) : Except Error Json.Value := do
  let c ← (Config.load command.path file).mapError .ofConfig
  match command with
  | .checkConfig _ => (describeConfig c).mapError .ofConfig
  | .explain _ primary attached =>
    let primary ← readPrimary primary
    let table ← (RoutingTable.ofConfig c primary attached).mapError .ofConfig
    return table.toJson

def envelope : Except Error Json.Value → Json.Value
  | .ok data => .object [("data", data), ("status", .string "ok")]
  | .error e =>
    .object [("code", .string e.fault.name), ("message", .string e.message), ("status", .string "error")]

/-- The line on standard output. -/
def reportLine (answer : Except Error Json.Value) : String :=
  String.ofList ((envelope answer).render ++ ['\n'])

/-- What a whole run leaves behind. -/
structure Exit where
  code : UInt32
  out : String
  err : String
deriving Repr, DecidableEq

def Command.run (command : Command) (file : FileState) : Exit :=
  let answer := command.answer file
  match answer with
  | .ok _ => ⟨0, reportLine answer, ""⟩
  | .error e => ⟨1, reportLine answer, e.text ++ "\n"⟩

def versionLine : String := "replica-router 0.1.0\n"

/-- The exit code where no command is run: asking for help or the version is no fault. -/
def Usage.code : Usage → UInt32
  | .help | .version => 0
  | _ => 2

end ReplicaRouting.Cli
