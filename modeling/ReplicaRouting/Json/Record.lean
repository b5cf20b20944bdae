import ReplicaRouting.Json.Reader
/-!
Typed reading: scalars that say what they expected, and records, written as an object with the fields in
any order or as a list in field order.
-/

namespace ReplicaRouting.Json

/-- The complaint about the value that stands here instead of the expected one. -/
def complain (expected : String) (s : List Char) : ReadError :=
  let number (r : Except ReadError (Number × List Char)) : ReadError :=
    match r with
    | .ok (n, _) => .wrongType (.number n) expected
    | .error e => e
  let word (found : Found) (r : Except ReadError (List Char)) : ReadError :=
    match r with
    | .ok _ => .wrongType found expected
    | .error e => e
  match s with
  | 'n' :: s => word .null (readWord ['u', 'l', 'l'] s)
  | 't' :: s => word (.bool true) (readWord ['r', 'u', 'e'] s)
  | 'f' :: s => word (.bool false) (readWord ['a', 'l', 's', 'e'] s)
  | '-' :: s => number (readNumber true s)
  | '"' :: s =>
    match readString s with
    | .ok (t, _) => .wrongType (.string t) expected
    | .error e => e
  | '[' :: _ => .wrongType .array expected
  | '\x7b' :: _ => .wrongType .object expected
  | c :: s => if c.isDigit then number (readNumber false (c :: s)) else .expectedValue
  | [] => .endInValue

def readText : Reader String := fun s =>
  match skipBlanks s with
  | '"' :: s => readString s
  | s => .error (complain "a string" s)

def readBool : Reader Bool := fun s =>
  match skipBlanks s with
  | 't' :: s => (readWord ['r', 'u', 'e'] s).map fun s => (true, s)
  | 'f' :: s => (readWord ['a', 'l', 's', 'e'] s).map fun s => (false, s)
  | s => .error (complain "a boolean" s)

/-- An integer from zero to below `bound`. -/
def readNat (bound : Nat) (expected : String) : Reader Nat := fun s =>
  let accept (r : Except ReadError (Number × List Char)) : Except ReadError (Nat × List Char) :=
    match r with
    | .ok (.natural n, s) =>
      if n < bound then .ok (n, s) else .error (.outOfRange (.number (.natural n)) expected)
    | .ok (.negative n, _) => .error (.outOfRange (.number (.negative n)) expected)
    | .ok (n, _) => .error (.wrongType (.number n) expected)
    | .error e => .error e
  match skipBlanks s with
  | '-' :: s => accept (readNumber true s)
  | c :: s =>
    if c.isDigit then accept (readNumber false (c :: s)) else .error (complain expected (c :: s))
  | [] => .error .endInValue

/-- One field of a record, with the value it has when it is left out. -/
structure Field (α : Type) where
  name : String
  read : Reader α
  fallback : Option α

/-- The members of an object that are fields, in the order of the text. -/
def readFields (fields : List (Field α)) : (fuel : Nat) → (first : Bool) → List String →
    Reader (List (String × α))
  | 0, _, _, _ => .error .endInObject
  | fuel + 1, first, seen, s => do
    match ← nextKey first s with
    | (none, s) => return ([], s)
    | (some k, s) =>
      match fields.find? (·.name = k) with
      | none =>
        let s ← skipValue (← readColon s)
        readFields fields fuel false seen s
      | some field =>
        if k ∈ seen then throw (.duplicateField k)
        let (v, s) ← field.read (← readColon s)
        let (vs, s) ← readFields fields fuel false (k :: seen) s
        return ((k, v) :: vs, s)

/-- Every field's value in field order. -/
def collect (found : List (String × α)) (fields : List (Field α)) : Except ReadError (List α) :=
  fields.mapM fun field =>
    match found.lookup field.name, field.fallback with
    | some v, _ => .ok v
    | none, some v => .ok v
    | none, none => .error (.missingField field.name)

/-- The items of a list, one for each field in turn. -/
def readPositional (expected : String) : List (Field α) → (position : Nat) → Reader (List α)
  | [], _, s => .ok ([], s)
  | field :: fields, i, s => do
    let (more, s) ← nextItem (i = 0) s
    let (v, s) ←
      if more then field.read s
      else
        match field.fallback with
        | some v => pure (v, s)
        | none => throw (.wrongLength i expected)
    let (vs, s) ← readPositional expected fields (i + 1) s
    return (v :: vs, s)

/-- A record by its name and fields: the values in field order. -/
def readRecord (name : String) (fields : List (Field α)) : Reader (List α) := fun s => do
  match skipBlanks s with
  | [] => throw .endInValue
  | '[' :: s =>
    let expected := "struct " ++ name ++ " with " ++ Text.numeral fields.length ++ " elements"
    let (vs, s) ← readPositional expected fields 0 s
    return (vs, ← closeList s)
  | '\x7b' :: s =>
    let (found, s) ← readFields fields (s.length + 1) true [] s
    let vs ← collect found fields
    return (vs, ← closeObject s)
  | s => throw (complain ("struct " ++ name) s)

/-- One name out of several, as a string or as the only key of an object with value `null`. -/
def readVariant (names : List (String × α)) (expected : String) : Reader α := fun s => do
  let pick (name : String) : Except ReadError α :=
    match names.lookup name with
    | some v => .ok v
    | none => .error (.unknownVariant name expected)
  match skipBlanks s with
  | [] => throw .endInValue
  | '"' :: s =>
    let (name, s) ← readString s
    return (← pick name, s)
  | '\x7b' :: s =>
    let (some name, s) ← nextKey true s | throw .expectedValue
    let v ← pick name
    match skipBlanks (← readColon s) with
    | 'n' :: s =>
      match skipBlanks (← readWord ['u', 'l', 'l'] s) with
      | '\x7d' :: s => return (v, s)
      | [] => throw .endInObject
      | _ => throw .expectedValue
    | s => throw (complain "unit" s)
  | _ => throw .expectedValue

end ReplicaRouting.Json
