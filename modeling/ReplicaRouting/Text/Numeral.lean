/-!
Numerals: decimal digits alone, leading zeros allowed, with an upper bound on the value, and the same in
base sixteen.
-/

namespace ReplicaRouting.Text

def numeral (n : Nat) : String := String.ofList (Nat.toDigits 10 n)

/-- The value of a non-empty run of ASCII digits that stays below `bound`. -/
def readDigits? (bound : Nat) (s : List Char) : Option Nat :=
  if s.isEmpty || !s.all Char.isDigit then none
  else
    let n := Nat.ofDigitChars 10 s 0
    if n < bound then some n else none

/-- As `readDigits?`, after at most one plus sign. -/
def readNumeral? (bound : Nat) : List Char → Option Nat
  | '+' :: s => readDigits? bound s
  | s => readDigits? bound s

def hexValue? (c : Char) : Option Nat :=
  if '0' ≤ c ∧ c ≤ '9' then some (c.toNat - 48)
  else if 'a' ≤ c ∧ c ≤ 'f' then some (c.toNat - 87)
  else if 'A' ≤ c ∧ c ≤ 'F' then some (c.toNat - 55)
  else none

def isHexDigit (c : Char) : Bool := (hexValue? c).isSome

/-- The value of hexadecimal digits. -/
def hexDigits (s : List Char) : Nat := s.foldl (fun n c => 16 * n + (hexValue? c).getD 0) 0

theorem readDigits?_toDigits {bound n : Nat} (h : n < bound) :
    readDigits? bound (Nat.toDigits 10 n) = some n := by
  have hall : (Nat.toDigits 10 n).all Char.isDigit = true :=
    List.all_eq_true.2 fun c hc => Nat.isDigit_of_mem_toDigits (by decide) (by decide) hc
  simp [readDigits?, hall, Nat.ofDigitChars_toDigits, h]

end ReplicaRouting.Text
