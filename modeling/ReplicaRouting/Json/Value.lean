import ReplicaRouting.Text.Shortest
/-!
JSON values and their compact written form: members in the order given, no blanks, strings escaped
where JSON asks for it and nowhere else.
-/

namespace ReplicaRouting.Json

/-- A number as read: an integer of 64 bits, or the bits of the nearest double. -/
inductive Number
  | natural (n : Nat)
  | negative (n : Nat)
  | double (bits : UInt64)
deriving Repr, DecidableEq

inductive Value
  | null
  | bool (b : Bool)
  | number (n : Number)
  | string (s : String)
  | array (items : List Value)
  | object (members : List (String × Value))
deriving Repr

instance : OfNat Value n := ⟨.number (.natural n)⟩

def Value.nat (n : Nat) : Value := .number (.natural n)

def Number.render : Number → List Char
  | .natural n => Nat.toDigits 10 n
  | .negative n => '-' :: Nat.toDigits 10 n
  | .double bits => (Text.shortestText bits).toList

/-- One character inside a string literal. -/
def escape (c : Char) : List Char :=
  match c with
  | '"' => ['\\', '"']
  | '\\' => ['\\', '\\']
  | '\n' => ['\\', 'n']
  | '\r' => ['\\', 'r']
  | '\t' => ['\\', 't']
  | '\x08' => ['\\', 'b']
  | '\x0c' => ['\\', 'f']
  | c =>
    if c.toNat < 0x20 then
      ['\\', 'u', '0', '0', Nat.digitChar (c.toNat / 16), Nat.digitChar (c.toNat % 16)]
    else [c]

/-- A string literal with its quotes. -/
def literal (s : List Char) : List Char := '"' :: s.flatMap escape ++ ['"']

mutual
def Value.render : Value → List Char
  | .null => ['n', 'u', 'l', 'l']
  | .bool true => ['t', 'r', 'u', 'e']
  | .bool false => ['f', 'a', 'l', 's', 'e']
  | .number n => n.render
  | .string s => literal s.toList
  | .array items => '[' :: renderItems items ++ [']']
  | .object members => '\x7b' :: renderMembers members ++ ['\x7d']

/-- Items with a comma before each but the first. -/
def Value.renderItems : List Value → List Char
  | [] => []
  | [v] => v.render
  | v :: vs => v.render ++ ',' :: renderItems vs

def Value.renderMembers : List (String × Value) → List Char
  | [] => []
  | [(k, v)] => literal k.toList ++ ':' :: v.render
  | (k, v) :: ms => literal k.toList ++ ':' :: v.render ++ ',' :: renderMembers ms
end

def Value.compact (v : Value) : String := String.ofList v.render

end ReplicaRouting.Json
