import ReplicaRouting.Engine.Records
import ReplicaRouting.Operation
/-!
Reads of a database, what is asked of its engine and what comes back.
-/

namespace ReplicaRouting.Engine

/-- A read that a remote node can serve as well. A range holds its lower bound but not its upper one. -/
inductive Read
  | lookup (index : UInt32) (key : Bytes)
  | prefixLookup (index : UInt32) (key : Bytes)
  | reversePrefixLookup (index : UInt32) (key : Bytes)
  | rangeLookup (index : UInt32) (lower upper : Bytes)
  | reverseRangeLookup (index : UInt32) (lower upper : Bytes)
deriving Repr, DecidableEq

def Read.operation : Read → Operation
  | .lookup .. => .lookup
  | .prefixLookup .. => .prefixLookup
  | .reversePrefixLookup .. => .reversePrefixLookup
  | .rangeLookup .. => .rangeLookup
  | .reverseRangeLookup .. => .reverseRangeLookup

/-- A lookup of the caller's own making: the keys that it tries in turn. -/
structure UserLookup where
  gets : List (UInt32 × Bytes)
deriving Repr, DecidableEq

inductive Request
  | read (q : Read)
  | userDefined (u : UserLookup)
deriving Repr, DecidableEq

def Request.operation : Request → Operation
  | .read q => q.operation
  | .userDefined _ => .userDefinedLookup

inductive Reply
  | value (v : Option Bytes)
  | entries (s : ResultSet)
  | done
deriving Repr, DecidableEq

/-- An order on keys. -/
abbrev Comparator := Bytes → Bytes → Ordering

end ReplicaRouting.Engine
