import ReplicaRouting.Json.Error
/-!
The tokens of JSON text: words, string literals and numbers, each read from the front of the input.
Numbers keep 64 bits of significand; what does not fit an integer becomes a double.
-/

namespace ReplicaRouting.Json

/-- Takes a value off the front of the input and leaves the rest. -/
abbrev Reader (α : Type) := List Char → Except ReadError (α × List Char)

def isBlank (c : Char) : Bool := c == ' ' || c == '\n' || c == '\t' || c == '\r'

def skipBlanks (s : List Char) : List Char := s.dropWhile isBlank

/-- The rest of a word such as `null`. -/
def readWord : List Char → List Char → Except ReadError (List Char)
  | [], s => .ok s
  | _ :: _, [] => .error .endInValue
  | c :: w, d :: s => if c = d then readWord w s else .error .expectedWord

/-! ### Strings -/

/-- Four hexadecimal digits; the input ends inside a string when fewer than four bytes are left. -/
def readHex4 : Reader Nat
  | a :: b :: c :: d :: s =>
    match Text.hexValue? a, Text.hexValue? b, Text.hexValue? c, Text.hexValue? d with
    | some a, some b, some c, some d => .ok (((a * 16 + b) * 16 + c) * 16 + d, s)
    | _, _, _, _ => .error .badEscape
  | s => .error (if 4 ≤ (String.ofList s).utf8ByteSize then .badEscape else .endInString)

/-- A character by its number, a pair of surrogates for one above `0xffff`. -/
def readUnicode (s : List Char) : Except ReadError (Char × List Char) := do
  let (high, s) ← readHex4 s
  if 0xdc00 ≤ high ∧ high ≤ 0xdfff then throw .loneSurrogate
  if high < 0xd800 ∨ 0xdbff < high then return (Char.ofNat high, s)
  match s with
  | '\\' :: 'u' :: s =>
    let (low, s) ← readHex4 s
    if low < 0xdc00 ∨ 0xdfff < low then throw .loneSurrogate
    return (Char.ofNat ((high - 0xd800) * 0x400 + (low - 0xdc00) + 0x10000), s)
  | [] | ['\\'] => throw .endInString
  | _ => throw .unpairedSurrogate

/-- What follows a backslash. Unless `strict`, surrogates need no partner and mean nothing. -/
def readEscape (strict : Bool) : Reader Char
  | '"' :: s => .ok ('"', s)
  | '\\' :: s => .ok ('\\', s)
  | '/' :: s => .ok ('/', s)
  | 'b' :: s => .ok ('\x08', s)
  | 'f' :: s => .ok ('\x0c', s)
  | 'n' :: s => .ok ('\n', s)
  | 'r' :: s => .ok ('\r', s)
  | 't' :: s => .ok ('\t', s)
  | 'u' :: s => if strict then readUnicode s else (readHex4 s).map fun r => (' ', r.2)
  | [] => .error .endInString
  | _ => .error .badEscape

def readChars (strict : Bool) : (fuel : Nat) → Reader (List Char)
  | _, [] => .error .endInString
  | _, '"' :: s => .ok ([], s)
  | 0, _ => .error .endInString
  | fuel + 1, '\\' :: s => do
    let (c, s) ← readEscape strict s
    let (cs, s) ← readChars strict fuel s
    return (c :: cs, s)
  | fuel + 1, c :: s =>
    if c.toNat < 0x20 then .error .controlCharacter
    else (readChars strict fuel s).map fun (cs, s) => (c :: cs, s)

/-- A string after its opening quote. -/
def readString (s : List Char) : Except ReadError (String × List Char) :=
  (readChars true s.length s).map fun (cs, s) => (String.ofList cs, s)

/-! ### Numbers -/

/-- Appends digits to a significand while 64 bits hold it; gives the count of those that fitted. -/
def accumulate (significand : Nat) : List Char → Nat × Nat
  | [] => (significand, 0)
  | c :: ds =>
    let next := significand * 10 + (c.toNat - 48)
    if next < UInt64.size then
      let (n, taken) := accumulate next ds
      (n, taken + 1)
    else (significand, 0)

def scale : (fuel : Nat) → Float → Int → Except ReadError Float
  | 0, f, _ => .ok f
  | fuel + 1, f, e =>
    if e.natAbs ≤ 308 then
      let power := Float.ofScientific 1 false e.natAbs
      if 0 ≤ e then
        if (f * power).isInf then .error .numberTooLarge else .ok (f * power)
      else .ok (f / power)
    else if f == 0.0 then .ok f
    else if 0 ≤ e then .error .numberTooLarge
    else scale fuel (f / 1e308) (e + 308)

/-- The double nearest to the significand, then scaled by the power of ten. -/
def makeDouble (minus : Bool) (significand : Nat) (e : Int) : Except ReadError Number := do
  let f ← scale 8 (UInt64.ofNat significand).toFloat e
  return .double (if minus then -f else f).toBits

/-- The exponent part after its letter. -/
def readExponent (minus : Bool) (significand : Nat) (e : Int) (s : List Char) :
    Except ReadError (Number × List Char) := do
  let (down, s) := match s with
    | '+' :: s => (false, s)
    | '-' :: s => (true, s)
    | s => (false, s)
  match s with
  | [] => throw .endInValue
  | c :: _ =>
    if !c.isDigit then throw .badNumber
    let n := Nat.ofDigitChars 10 (s.takeWhile Char.isDigit) 0
    let rest := s.dropWhile Char.isDigit
    if n < Nat.pow 2 31 then
      return (← makeDouble minus significand (if down then e - n else e + n), rest)
    if significand ≠ 0 ∧ !down then throw .numberTooLarge
    return (← makeDouble minus 0 0, rest)

/-- The fraction after its point. -/
def readFraction (minus : Bool) (significand : Nat) (e : Int) (s : List Char) :
    Except ReadError (Number × List Char) := do
  let digits := s.takeWhile Char.isDigit
  let rest := s.dropWhile Char.isDigit
  if digits.isEmpty then throw (if rest.isEmpty then .endInValue else .badNumber)
  let (significand, taken) := accumulate significand digits
  match rest with
  | 'e' :: s | 'E' :: s => readExponent minus significand (e - taken) s
  | s => return (← makeDouble minus significand (e - taken), s)

def makeInteger (minus : Bool) (n : Nat) : Except ReadError Number :=
  if !minus then .ok (.natural n)
  else if 0 < n ∧ n ≤ Nat.pow 2 63 then .ok (.negative n)
  else makeDouble true n 0

/-- A number after its sign. -/
def readNumber (minus : Bool) (s : List Char) : Except ReadError (Number × List Char) := do
  match s with
  | [] => throw .endInValue
  | '0' :: c :: _ => if c.isDigit then throw .badNumber
  | c :: _ => if !c.isDigit then throw .badNumber
  let digits := s.takeWhile Char.isDigit
  let (significand, taken) := accumulate 0 digits
  let dropped := digits.length - taken
  match s.dropWhile Char.isDigit with
  | '.' :: s => readFraction minus significand dropped s
  | 'e' :: s | 'E' :: s => readExponent minus significand dropped s
  | s =>
    if dropped = 0 then return (← makeInteger minus significand, s)
    return (← makeDouble minus significand dropped, s)

/-- Drops digits, at least one. -/
def skipDigits (s : List Char) : Except ReadError (List Char) :=
  match s with
  | c :: _ => if c.isDigit then .ok (s.dropWhile Char.isDigit) else .error .badNumber
  | [] => .error .badNumber

def skipExponent (s : List Char) : Except ReadError (List Char) :=
  match s with
  | '+' :: s | '-' :: s => skipDigits s
  | s => skipDigits s

/-- Drops a number after its sign without reading its value. -/
def skipNumber (s : List Char) : Except ReadError (List Char) := do
  match s with
  | '0' :: c :: _ => if c.isDigit then throw .badNumber
  | _ => pure ()
  match ← skipDigits s with
  | '.' :: s =>
    match ← skipDigits s with
    | 'e' :: s | 'E' :: s => skipExponent s
    | s => return s
  | 'e' :: s | 'E' :: s => skipExponent s
  | s => return s

end ReplicaRouting.Json
