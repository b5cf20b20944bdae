import ReplicaRouting.Text.Numeral
/-!
Socket addresses and their canonical text: dotted IPv4, compressed lower-case IPv6 in brackets with its
scope, then the port.
-/

namespace ReplicaRouting.Net

inductive Host
  | v4 (a b c d : UInt8)
  /-- The flow label counts when addresses are compared, but it is not part of the text. -/
  | v6 (groups : Vector UInt16 8) (flow scope : UInt32)
deriving Repr, DecidableEq

structure SocketAddress where
  host : Host
  port : UInt16
deriving Repr, DecidableEq

def Host.isV6 : Host → Bool
  | .v4 .. => false
  | .v6 .. => true

def decimal (n : Nat) : List Char := Nat.toDigits 10 n

def dotted (a b c d : UInt8) : List Char :=
  decimal a.toNat ++ '.' :: decimal b.toNat ++ '.' :: decimal c.toNat ++ '.' :: decimal d.toNat

def colons : List UInt16 → List Char
  | [] => []
  | [g] => Nat.toDigits 16 g.toNat
  | g :: gs => Nat.toDigits 16 g.toNat ++ ':' :: colons gs

def zeroRun (gs : List UInt16) : Nat := (gs.takeWhile (· = 0)).length

/-- Start and length of the longest run of zeros, the first of equals. -/
def longestZeroRun : List UInt16 → Nat × Nat
  | [] => (0, 0)
  | g :: gs =>
    let here := zeroRun (g :: gs)
    let (start, length) := longestZeroRun gs
    if length ≤ here then (0, here) else (start + 1, length)

/-- The low half as an IPv4 address, if the rest marks it as one. -/
def mappedV4? : List UInt16 → Option (UInt16 × UInt16)
  | [0, 0, 0, 0, 0, 0xffff, g, h] => some (g, h)
  | _ => none

def groupsText (gs : List UInt16) : List Char :=
  match mappedV4? gs with
  | some (g, h) =>
    [':', ':', 'f', 'f', 'f', 'f', ':'] ++
      dotted (g.toNat / 256).toUInt8 (g.toNat % 256).toUInt8 (h.toNat / 256).toUInt8 (h.toNat % 256).toUInt8
  | none =>
    let (start, length) := longestZeroRun gs
    if 1 < length then colons (gs.take start) ++ ':' :: ':' :: colons (gs.drop (start + length))
    else colons gs

def Host.text : Host → List Char
  | .v4 a b c d => dotted a b c d
  | .v6 gs _ scope =>
    '[' :: groupsText gs.toList ++ (if scope = 0 then [] else '%' :: decimal scope.toNat) ++ [']']

def Host.unlabelled : Host → Host
  | .v4 a b c d => .v4 a b c d
  | .v6 gs _ scope => .v6 gs 0 scope

/-- The address that the text of this one is read as. -/
def SocketAddress.unlabelled (a : SocketAddress) : SocketAddress := { a with host := a.host.unlabelled }

def SocketAddress.text (a : SocketAddress) : String :=
  String.ofList (a.host.text ++ ':' :: decimal a.port.toNat)

end ReplicaRouting.Net
