import ReplicaRouting.Engine.Read
/-!
An engine that keeps its records in memory, each index in the order of its keys.
-/

namespace ReplicaRouting.Engine

structure Store where
  indexes : List (UInt32 × List (Bytes × Bytes)) := []
deriving Repr, DecidableEq

/-- Puts a value under a key, in place of the one that was there. -/
def putEntry (key value : Bytes) : List (Bytes × Bytes) → List (Bytes × Bytes)
  | [] => [(key, value)]
  | (k, v) :: rest =>
    match compare key k with
    | .lt => (key, value) :: (k, v) :: rest
    | .eq => (key, value) :: rest
    | .gt => (k, v) :: putEntry key value rest

namespace Store

def entries (s : Store) (index : UInt32) : List (Bytes × Bytes) := (s.indexes.lookup index).getD []

def put (s : Store) (index : UInt32) (key value : Bytes) : Store :=
  ⟨(index, putEntry key value (s.entries index)) :: s.indexes.filter (·.1 ≠ index)⟩

def get? (s : Store) (index : UInt32) (key : Bytes) : Option Bytes := (s.entries index).lookup key

def withPrefix (s : Store) (index : UInt32) (start : Bytes) : List (Bytes × Bytes) :=
  (s.entries index).filter fun e => start.isPrefixOf e.1

def inRange (s : Store) (index : UInt32) (lower upper : Bytes) : List (Bytes × Bytes) :=
  (s.entries index).filter fun e => compare lower e.1 != .gt && compare e.1 upper == .lt

def answer (s : Store) : Request → Reply
  | .read (.lookup index key) => .value (s.get? index key)
  | .read (.prefixLookup index key) => .entries ⟨s.withPrefix index key⟩
  | .read (.reversePrefixLookup index key) => .entries ⟨(s.withPrefix index key).reverse⟩
  | .read (.rangeLookup index lower upper) => .entries ⟨s.inRange index lower upper⟩
  | .read (.reverseRangeLookup index lower upper) => .entries ⟨(s.inRange index lower upper).reverse⟩
  | .userDefined u => .value (u.gets.findSome? fun g => s.get? g.1 g.2)

end Store
end ReplicaRouting.Engine
