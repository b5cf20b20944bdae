import ReplicaRouting.Engine.Bytes
/-!
Results of scans and groups of records to write.
-/

namespace ReplicaRouting.Engine

/-- Entries of a scan in the order of the scan. -/
structure ResultSet where
  entries : List (Bytes × Bytes) := []
deriving Repr, DecidableEq

namespace ResultSet

def push (s : ResultSet) (key value : Bytes) : ResultSet := ⟨s.entries ++ [(key, value)]⟩
def keys (s : ResultSet) : List Bytes := s.entries.map (·.1)
def size (s : ResultSet) : Nat := s.entries.length
def isEmpty (s : ResultSet) : Bool := s.entries.isEmpty

end ResultSet

/-- One record to write; without a value it deletes the key. -/
structure WriteRecord where
  index : UInt32
  key : Bytes
  value : Option Bytes
deriving Repr, DecidableEq

def WriteRecord.isDelete (r : WriteRecord) : Bool := r.value.isNone

/-- Records for one database, in the order added. -/
structure InsertGroup where
  database : UInt32
  records : List WriteRecord := []
deriving Repr, DecidableEq

namespace InsertGroup

def insert (g : InsertGroup) (index : UInt32) (key value : Bytes) : InsertGroup :=
  { g with records := g.records ++ [⟨index, key, some value⟩] }

def delete (g : InsertGroup) (index : UInt32) (key : Bytes) : InsertGroup :=
  { g with records := g.records ++ [⟨index, key, none⟩] }

def size (g : InsertGroup) : Nat := g.records.length
def isEmpty (g : InsertGroup) : Bool := g.records.isEmpty

end InsertGroup

/-- The kinds of payload that the persistence manager takes. -/
inductive Payload
  | insert
deriving Repr, DecidableEq

def Payload.name : Payload → String
  | .insert => "insert"

end ReplicaRouting.Engine
