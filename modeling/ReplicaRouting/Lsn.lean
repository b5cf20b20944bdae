import ReplicaRouting.Json.Record
import ReplicaRouting.Text.Blank
/-!
Log positions `view:sequence`. Positions of a later view come after all those of an earlier one.
-/

namespace ReplicaRouting

structure Lsn where
  view : UInt32
  sequence : UInt64
deriving Repr, DecidableEq

namespace Lsn

def zero : Lsn := ⟨0, 0⟩

/-- One number in the order of the positions. -/
def rank (l : Lsn) : Nat := l.view.toNat * UInt64.size + l.sequence.toNat

instance : LT Lsn := ⟨fun a b => a.view < b.view ∨ (a.view = b.view ∧ a.sequence < b.sequence)⟩

instance : LE Lsn := ⟨fun a b => ¬ b < a⟩

instance (a b : Lsn) : Decidable (a < b) :=
  inferInstanceAs (Decidable (a.view < b.view ∨ (a.view = b.view ∧ a.sequence < b.sequence)))

instance (a b : Lsn) : Decidable (a ≤ b) := inferInstanceAs (Decidable (¬ b < a))

theorem lt_iff_rank {a b : Lsn} : a < b ↔ a.rank < b.rank := by
  have ha := a.sequence.toNat_lt_size
  have hb := b.sequence.toNat_lt_size
  show (a.view < b.view ∨ (a.view = b.view ∧ a.sequence < b.sequence)) ↔ _
  rw [UInt32.lt_iff_toNat_lt, UInt64.lt_iff_toNat_lt, ← UInt32.toNat_inj]
  simp only [rank, UInt64.size] at *
  omega

theorem le_iff_rank {a b : Lsn} : a ≤ b ↔ a.rank ≤ b.rank := by
  show (¬ b < a) ↔ _
  rw [lt_iff_rank]
  omega

theorem rank_inj {a b : Lsn} : a.rank = b.rank ↔ a = b := by
  refine ⟨fun h => ?_, fun h => h ▸ rfl⟩
  have ha := a.sequence.toNat_lt_size
  have hb := b.sequence.toNat_lt_size
  obtain ⟨v, q⟩ := a
  obtain ⟨v', q'⟩ := b
  rw [mk.injEq, ← UInt32.toNat_inj, ← UInt64.toNat_inj]
  simp only [rank, UInt64.size] at *
  omega

section Order
variable {a b c : Lsn}

protected theorem not_lt : ¬ a < b ↔ b ≤ a := .rfl

protected theorem not_le : ¬ a ≤ b ↔ b < a := Decidable.not_not

protected theorem lt_irrefl (a : Lsn) : ¬ a < a := fun h => Nat.lt_irrefl _ (lt_iff_rank.mp h)

protected theorem lt_trans (h : a < b) (h' : b < c) : a < c :=
  lt_iff_rank.mpr (Nat.lt_trans (lt_iff_rank.mp h) (lt_iff_rank.mp h'))

protected theorem le_trans (h : a ≤ b) (h' : b ≤ c) : a ≤ c :=
  le_iff_rank.mpr (Nat.le_trans (le_iff_rank.mp h) (le_iff_rank.mp h'))

protected theorem lt_of_le_of_ne (h : a ≤ b) (hn : a ≠ b) : a < b :=
  lt_iff_rank.mpr (Nat.lt_of_le_of_ne (le_iff_rank.mp h) fun he => hn (rank_inj.mp he))

end Order

instance : Ord Lsn := ⟨fun a b => if a < b then .lt else if a = b then .eq else .gt⟩

/-- The position after this one in the same view, if the sequence has one. -/
def next? (l : Lsn) : Option Lsn :=
  if l.sequence.toNat + 1 < UInt64.size then some { l with sequence := l.sequence + 1 } else none

def text (l : Lsn) : String :=
  String.ofList (Nat.toDigits 10 l.view.toNat ++ ':' :: Nat.toDigits 10 l.sequence.toNat)

/-- The two parts around the first colon. -/
def splitColon? (s : List Char) : Option (List Char × List Char) :=
  match s.span (· != ':') with
  | (view, ':' :: sequence) => some (view, sequence)
  | _ => none

def read? (s : List Char) : Option Lsn := do
  let (view, sequence) ← splitColon? (Text.trim s)
  let view ← Text.readNumeral? UInt32.size view
  let sequence ← Text.readNumeral? UInt64.size sequence
  return ⟨view.toUInt32, sequence.toUInt64⟩

/-- The position with its fields by name. -/
def inspect (l : Lsn) : String :=
  "Lsn \x7b view_id: " ++ Text.numeral l.view.toNat ++ ", sequence_no: " ++
    Text.numeral l.sequence.toNat ++ " \x7d"

def toJson (l : Lsn) : Json.Value :=
  .object [("view_id", .nat l.view.toNat), ("sequence_no", .nat l.sequence.toNat)]

def fields : List (Json.Field Nat) :=
  [⟨"view_id", Json.readNat UInt32.size "u32", none⟩,
    ⟨"sequence_no", Json.readNat UInt64.size "u64", none⟩]

def reader : Json.Reader Lsn := fun s => do
  match ← Json.readRecord "Lsn" fields s with
  | ([view, sequence], s) => return (⟨view.toUInt32, sequence.toUInt64⟩, s)
  | _ => throw .expectedValue

def ofJson (s : String) : Except Json.ReadError Lsn := reader.run s

end Lsn

inductive LsnError
  | malformed (text : String)
  | regression (latest attempted : Lsn)
deriving Repr, DecidableEq

namespace LsnError

def message : LsnError → String
  | .malformed text => "Malformed LSN: " ++ Text.quote text
  | .regression latest attempted =>
    "LSN regression: latest applied is " ++ latest.text ++ ", refused to move back to " ++ attempted.text

def isFatal : LsnError → Bool
  | .malformed _ => false
  | .regression .. => true

end LsnError

def Lsn.parse (s : String) : Except LsnError Lsn :=
  match Lsn.read? s.toList with
  | some l => .ok l
  | none => .error (.malformed s)

end ReplicaRouting
