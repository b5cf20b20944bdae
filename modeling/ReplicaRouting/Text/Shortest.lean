/-!
The shortest decimal of a double: the fewest digits that read back, the nearest of those, positional
from `1e-5` up to below `1e16`.
-/

namespace ReplicaRouting.Text

/-- A positive double `mantissa * 2 ^ exponent`; `tight` if the gap below it is half the one above. -/
structure Binary where
  mantissa : Nat
  exponent : Int
  tight : Bool
deriving Repr, DecidableEq

def Binary.ofBits (bits : UInt64) : Binary :=
  let fraction : Nat := bits.toNat % Nat.pow 2 52
  let biased : Nat := bits.toNat / Nat.pow 2 52 % 2048
  if biased = 0 then ⟨fraction, -1074, false⟩
  else ⟨fraction + Nat.pow 2 52, (biased : Int) - 1075, fraction = 0 && biased != 1⟩

/-- The double in quarters of its last place, over a power of two. -/
def Binary.ratio (x : Binary) : Nat × Nat :=
  if 2 ≤ x.exponent then (Nat.pow 2 (x.exponent - 2).toNat, 1) else (1, Nat.pow 2 (2 - x.exponent).toNat)

def leadingZeros (num den : Nat) : (fuel j : Nat) → Nat
  | 0, j => j
  | fuel + 1, j => if den ≤ num * Nat.pow 10 j then j else leadingZeros num den fuel (j + 1)

/-- The largest `e` with `10 ^ e * den ≤ num`, for positive `num` and `den`. -/
def decimalExponent (num den : Nat) : Int :=
  if den ≤ num then ((Nat.toDigits 10 (num / den)).length : Int) - 1
  else -(leadingZeros num den 400 1 : Int)

/-- The nearer of the two neighbours on the grid `10 ^ k` that lie in the rounding interval. -/
def gridHit (x : Binary) (k : Int) : Option Nat :=
  let (unit, den) := x.ratio
  let (up, down) := if 0 ≤ k then (1, Nat.pow 10 k.toNat) else (Nat.pow 10 (-k).toNat, 1)
  let scale := unit * up
  let step := den * down
  let value := 4 * x.mantissa * scale
  let high := (4 * x.mantissa + 2) * scale
  let low := (4 * x.mantissa - if x.tight then 1 else 2) * scale
  let closed := x.mantissa % 2 = 0
  let below := value / step
  let above := below + 1
  let belowHit := low < below * step || (closed && low = below * step)
  let aboveHit := above * step < high || (closed && above * step = high)
  let nearBelow := value - below * step
  let nearAbove := above * step - value
  match belowHit, aboveHit with
  | true, true =>
    if nearBelow < nearAbove || (nearBelow = nearAbove && below % 2 = 0) then some below else some above
  | true, false => some below
  | false, true => some above
  | false, false => none

def dropZeros (n : Nat) (k : Int) : Nat × Int :=
  if h : 0 < n ∧ n % 10 = 0 then dropZeros (n / 10) (k + 1) else (n, k)
termination_by n
decreasing_by omega

/-- The first grid from `10 ^ k` downwards with a hit. -/
def firstHit (x : Binary) : (fuel : Nat) → (k : Int) → Nat × Int
  | 0, k => (0, k)
  | fuel + 1, k =>
    match gridHit x k with
    | some n => dropZeros n k
    | none => firstHit x fuel (k - 1)

/-- Digits and power of ten of the shortest decimal: a grid of seventeen digits always has a hit. -/
def shortest (x : Binary) : Nat × Int :=
  firstHit x 18 (decimalExponent (4 * x.mantissa * x.ratio.1) x.ratio.2)

def layout (digits : List Char) (k : Int) : List Char :=
  let point := digits.length + k
  if 0 ≤ k ∧ point ≤ 16 then digits ++ List.replicate k.toNat '0' ++ ['.', '0']
  else if 0 < point ∧ point ≤ 16 then digits.take point.toNat ++ '.' :: digits.drop point.toNat
  else if -5 < point ∧ point ≤ 0 then '0' :: '.' :: List.replicate (-point).toNat '0' ++ digits
  else
    let e := point - 1
    let power := (if e < 0 then '-' else '+') :: Nat.toDigits 10 e.natAbs
    digits.take 1 ++ (if digits.length ≤ 1 then [] else '.' :: digits.drop 1) ++ 'e' :: power

/-- The text of the finite double with these bits. -/
def shortestText (bits : UInt64) : String :=
  let sign := if bits.toNat < Nat.pow 2 63 then [] else ['-']
  let x := Binary.ofBits bits
  if x.mantissa = 0 then String.ofList (sign ++ ['0', '.', '0'])
  else
    let (n, k) := shortest x
    String.ofList (sign ++ layout (Nat.toDigits 10 n) k)

end ReplicaRouting.Text
