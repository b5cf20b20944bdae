import ReplicaRouting.Json.Scan
/-!
JSON values from text. `readValue` reads one value of bounded depth, `skipValue` passes over one of any
depth, and `parse` reads a whole text.
-/

namespace ReplicaRouting.Json

/-! ### Lists and objects -/

/-- Moves to the next item of a list; `false` at the closing bracket. -/
def nextItem (first : Bool) (s : List Char) : Except ReadError (Bool × List Char) :=
  match skipBlanks s with
  | [] => .error .endInList
  | ']' :: s => .ok (false, ']' :: s)
  | c :: s =>
    if first then .ok (true, c :: s)
    else if c = ',' then
      match skipBlanks s with
      | [] => .error .endInValue
      | ']' :: _ => .error .trailingComma
      | s => .ok (true, s)
    else .error .expectedListComma

/-- Passes the closing bracket of a list. -/
def closeList (s : List Char) : Except ReadError (List Char) :=
  match skipBlanks s with
  | [] => .error .endInList
  | ']' :: s => .ok s
  | ',' :: s =>
    match skipBlanks s with
    | ']' :: _ => .error .trailingComma
    | _ => .error .trailingCharacters
  | _ => .error .trailingCharacters

/-- Reads the next key of an object; `none` at the closing brace. -/
def nextKey (first : Bool) (s : List Char) : Except ReadError (Option String × List Char) :=
  let key (s : List Char) : Except ReadError (Option String × List Char) :=
    (readString s).map fun (k, s) => (some k, s)
  match skipBlanks s with
  | [] => .error .endInObject
  | '\x7d' :: s => .ok (none, '\x7d' :: s)
  | c :: s =>
    if first then if c = '"' then key s else .error .keyNotString
    else if c = ',' then
      match skipBlanks s with
      | [] => .error .endInValue
      | '"' :: s => key s
      | '\x7d' :: _ => .error .trailingComma
      | _ => .error .keyNotString
    else .error .expectedObjectComma

/-- Passes the colon after a key. -/
def readColon (s : List Char) : Except ReadError (List Char) :=
  match skipBlanks s with
  | [] => .error .endInObject
  | ':' :: s => .ok s
  | _ => .error .expectedColon

/-- Passes the closing brace of an object. -/
def closeObject (s : List Char) : Except ReadError (List Char) :=
  match skipBlanks s with
  | [] => .error .endInObject
  | '\x7d' :: s => .ok s
  | ',' :: _ => .error .trailingComma
  | _ => .error .trailingCharacters

def readItems (item : Reader α) : (fuel : Nat) → (first : Bool) → Reader (List α)
  | 0, _, _ => .error .endInList
  | fuel + 1, first, s => do
    let (more, s) ← nextItem first s
    if !more then return ([], s)
    let (v, s) ← item s
    let (vs, s) ← readItems item fuel false s
    return (v :: vs, s)

def readMembers (item : Reader α) : (fuel : Nat) → (first : Bool) → Reader (List (String × α))
  | 0, _, _ => .error .endInObject
  | fuel + 1, first, s => do
    match ← nextKey first s with
    | (none, s) => return ([], s)
    | (some k, s) =>
      let (v, s) ← item (← readColon s)
      let (ms, s) ← readMembers item fuel false s
      return ((k, v) :: ms, s)

/-! ### Values -/

/-- A value whose items, if it has any, are read by `nested`; `none` means that they are too deep. -/
def readValueWith (nested : Option (Reader Value)) (s : List Char) :
    Except ReadError (Value × List Char) := do
  match skipBlanks s with
  | [] => throw .endInValue
  | 'n' :: s => return (.null, ← readWord ['u', 'l', 'l'] s)
  | 't' :: s => return (.bool true, ← readWord ['r', 'u', 'e'] s)
  | 'f' :: s => return (.bool false, ← readWord ['a', 'l', 's', 'e'] s)
  | '-' :: s => (readNumber true s).map fun (n, s) => (.number n, s)
  | '"' :: s => (readString s).map fun (t, s) => (.string t, s)
  | '[' :: s =>
    let some item := nested | throw .tooDeep
    let (vs, s) ← readItems item (s.length + 1) true s
    return (.array vs, ← closeList s)
  | '\x7b' :: s =>
    let some item := nested | throw .tooDeep
    let (ms, s) ← readMembers item (s.length + 1) true s
    return (.object ms, ← closeObject s)
  | c :: s =>
    if c.isDigit then (readNumber false (c :: s)).map fun (n, s) => (.number n, s)
    else throw .expectedValue

/-- A value with at most `depth` lists and objects inside one another. -/
def readValue : (depth : Nat) → Reader Value
  | 0 => readValueWith none
  | depth + 1 => readValueWith (some (readValue depth))

/-- Lists and objects may stand inside one another up to this depth. -/
def maxDepth : Nat := 127

/-- Nothing but blanks may follow. -/
def finish (s : List Char) : Except ReadError Unit :=
  if (skipBlanks s).isEmpty then .ok () else .error .trailingCharacters

/-- Reads a whole text. -/
def Reader.run (read : Reader α) (s : String) : Except ReadError α := do
  let (v, rest) ← read s.toList
  finish rest
  return v

def parse (s : String) : Except ReadError Value := (readValue maxDepth).run s

/-! ### Skipping -/

inductive Bracket
  | list
  | object
deriving Repr, DecidableEq

/-- What is passed next: a value, or what follows one (`comma`) or an opening bracket. -/
inductive Expecting
  | value
  | separator (comma : Bool)
deriving Repr, DecidableEq

def skipKey (s : List Char) : Except ReadError (List Char) := do
  match skipBlanks s with
  | [] => throw .endInObject
  | '"' :: s =>
    let (_, s) ← readChars false s.length s
    readColon s
  | _ => throw .keyNotString

/-- Passes the key, if the bracket asks for one, that stands before a value. -/
def skipToValue (bracket : Bracket) (s : List Char) : Except ReadError (List Char) :=
  match bracket with
  | .list => .ok s
  | .object => skipKey s

def skipScalar (s : List Char) : Except ReadError (List Char) := do
  match s with
  | 'n' :: s => readWord ['u', 'l', 'l'] s
  | 't' :: s => readWord ['r', 'u', 'e'] s
  | 'f' :: s => readWord ['a', 'l', 's', 'e'] s
  | '-' :: s => skipNumber s
  | '"' :: s => return (← readChars false s.length s).2
  | c :: s => if c.isDigit then skipNumber (c :: s) else throw .expectedValue
  | [] => throw .endInValue

/-- Passes values and separators until the brackets that are open are closed. -/
def skipLoop : (fuel : Nat) → Expecting → List Bracket → List Char → Except ReadError (List Char)
  | 0, _, _, _ => .error .endInValue
  | fuel + 1, .value, stack, s =>
    match skipBlanks s with
    | '[' :: s => skipLoop fuel (.separator false) (.list :: stack) s
    | '\x7b' :: s => skipLoop fuel (.separator false) (.object :: stack) s
    | s => do skipLoop fuel (.separator true) stack (← skipScalar s)
  | _ + 1, .separator _, [], s => .ok s
  | fuel + 1, .separator comma, bracket :: stack, s => do
    match skipBlanks s, bracket with
    | [], .list => throw .endInList
    | [], .object => throw .endInObject
    | ']' :: s, .list => skipLoop fuel (.separator true) stack s
    | '\x7d' :: s, .object => skipLoop fuel (.separator true) stack s
    | c :: s, bracket =>
      if comma then
        if c = ',' then skipLoop fuel .value (bracket :: stack) (← skipToValue bracket s)
        else throw (match bracket with | .list => .expectedListComma | .object => .expectedObjectComma)
      else skipLoop fuel .value (bracket :: stack) (← skipToValue bracket (c :: s))

/-- Passes over one value without reading it. -/
def skipValue (s : List Char) : Except ReadError (List Char) :=
  skipLoop (2 * s.length + 2) .value [] s

end ReplicaRouting.Json
