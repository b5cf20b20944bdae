import ReplicaRouting.Policy
/-!
The operations of a routed database.
-/

namespace ReplicaRouting

inductive Operation
  | lookup
  | prefixLookup
  | reversePrefixLookup
  | rangeLookup
  | reverseRangeLookup
  | userDefinedLookup
  | comparators
  | insert
deriving Repr, DecidableEq

namespace Operation

def all : List Operation :=
  [.lookup, .prefixLookup, .reversePrefixLookup, .rangeLookup, .reverseRangeLookup, .userDefinedLookup,
    .comparators, .insert]

def access : Operation → Access
  | .insert => .write
  | _ => .read

/-- Whether a remote request can express the operation. -/
def isForwardable : Operation → Bool
  | .userDefinedLookup | .comparators => false
  | _ => true

def name : Operation → String
  | .lookup => "lookup"
  | .prefixLookup => "prefix_lookup"
  | .reversePrefixLookup => "reverse_prefix_lookup"
  | .rangeLookup => "range_lookup"
  | .reverseRangeLookup => "reverse_range_lookup"
  | .userDefinedLookup => "user_defined_lookup"
  | .comparators => "comparators"
  | .insert => "insert"

def ofName? (s : String) : Option Operation := all.find? (·.name = s)

end Operation

end ReplicaRouting
