import ReplicaRouting.Text.Numeral
/-!
Request contexts: an id of their own and perhaps a token of the caller, handed back untouched.
-/

namespace ReplicaRouting.Result

inductive TokenValue
  | text (s : String)
  | number (n : UInt64)
deriving Repr, DecidableEq

/-- A token. Two tokens made apart differ in `serial` even if their values are equal. -/
structure Token where
  serial : Nat
  value : TokenValue
deriving Repr, DecidableEq

structure RequestId where
  serial : Nat
deriving Repr, DecidableEq

/-- The hexadecimal digits of the serial in the shape of a random UUID. -/
def RequestId.text (id : RequestId) : String :=
  let digits := Nat.toDigits 16 id.serial
  let d := List.replicate (30 - digits.length) '0' ++ digits
  String.ofList (d.take 8 ++ '-' :: (d.drop 8).take 4 ++ '-' :: '4' :: (d.drop 12).take 3 ++
    '-' :: '8' :: (d.drop 15).take 3 ++ '-' :: d.drop 18)

structure Context where
  id : RequestId
  token : Option Token
deriving Repr, DecidableEq

namespace Context

/-- The context numbered `serial`; its token, if it has one, is new as well. -/
def make (serial : Nat) (token : Option TokenValue) : Context :=
  ⟨⟨serial⟩, token.map fun v => ⟨serial, v⟩⟩

def hasToken (c : Context) : Bool := c.token.isSome

/-- Both carry the same token, or neither carries one. -/
def sameToken (a b : Context) : Bool := a.token = b.token

def text? (c : Context) : Option String :=
  match c.token with
  | some ⟨_, .text s⟩ => some s
  | _ => none

def number? (c : Context) : Option UInt64 :=
  match c.token with
  | some ⟨_, .number n⟩ => some n
  | _ => none

def inspect (c : Context) : String :=
  "RequestContext \x7b request_id: " ++ c.id.text ++ ", has_token: " ++
    (if c.hasToken then "true" else "false") ++ " \x7d"

end Context
end ReplicaRouting.Result
