import ReplicaRouting.Policy
/-!
The policy of a configuration, by the name of a preset or as its two flags, and why a configuration is
refused.
-/

namespace ReplicaRouting

inductive ConfigError
  | unreadable (reason : String)
  | malformed (reason : String)
  | invalid (reason : String)
deriving Repr, DecidableEq

def ConfigError.message : ConfigError → String
  | .unreadable reason => "Failed to read config: " ++ reason
  | .malformed reason => "Invalid config JSON: " ++ reason
  | .invalid reason => "Invalid config: " ++ reason

inductive PolicySetting
  | preset (name : String)
  | flags (policy : Policy)
deriving Repr, DecidableEq

namespace PolicySetting

def resolve : PolicySetting → Except ConfigError Policy
  | .preset name => (Policy.parse name).mapError .invalid
  | .flags policy => .ok policy

/-- By name where there is one. -/
def ofPolicy (p : Policy) : PolicySetting :=
  match p.preset? with
  | some name => .preset name
  | none => .flags p

def toJson : PolicySetting → Json.Value
  | .preset name => .string name
  | .flags policy => policy.toJson

def ofValue? : Json.Value → Option PolicySetting
  | .string name => some (.preset name)
  | v => (Policy.ofValue? v).map .flags

/-- Inside another record, so one level less deep than a text of its own. -/
def reader : Json.Reader PolicySetting := fun s => do
  let (v, s) ← Json.readValue (Json.maxDepth - 1) s
  match ofValue? v with
  | some setting => return (setting, s)
  | none => throw (.noVariant "PolicySetting")

end PolicySetting
end ReplicaRouting
