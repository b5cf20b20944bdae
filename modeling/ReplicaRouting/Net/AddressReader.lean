import ReplicaRouting.Net.SocketAddress
/-!
Reading socket addresses. Each part is read off the front of the text and the whole text has to be used.
-/

namespace ReplicaRouting.Net

/-- A decimal number below `bound`. Unless `padded`, it has no leading zero and at most three digits. -/
def readDecimal (bound : Nat) (padded : Bool) (s : List Char) : Option (Nat × List Char) :=
  let digits := s.takeWhile Char.isDigit
  if !padded && (3 < digits.length || (digits.head? = some '0' && 1 < digits.length)) then none
  else (Text.readDigits? bound digits).map fun n => (n, s.dropWhile Char.isDigit)

def readOctet (s : List Char) : Option (UInt8 × List Char) :=
  (readDecimal 256 false s).map fun (n, s) => (n.toUInt8, s)

def readChar (c : Char) : List Char → Option (List Char)
  | d :: s => if c = d then some s else none
  | [] => none

def readV4 (s : List Char) : Option ((UInt8 × UInt8 × UInt8 × UInt8) × List Char) := do
  let (a, s) ← readOctet s
  let (b, s) ← readOctet (← readChar '.' s)
  let (c, s) ← readOctet (← readChar '.' s)
  let (d, s) ← readOctet (← readChar '.' s)
  return ((a, b, c, d), s)

def readGroup (s : List Char) : Option (UInt16 × List Char) :=
  let digits := s.takeWhile Text.isHexDigit
  if digits.isEmpty || 4 < digits.length then none
  else some ((Text.hexDigits digits).toUInt16, s.dropWhile Text.isHexDigit)

def joinOctets (a b : UInt8) : UInt16 := (a.toNat * 256 + b.toNat).toUInt16

/-- Up to `limit` groups with colons between them, the last two perhaps in dotted form; tells whether
they were. Stops before the first thing that is no group. -/
def readGroups (first : Bool) : (limit : Nat) → List Char → (List UInt16 × Bool) × List Char
  | 0, s => (([], false), s)
  | limit + 1, s =>
    match if first then some s else readChar ':' s with
    | none => (([], false), s)
    | some t =>
      match if limit = 0 then none else readV4 t with
      | some ((a, b, c, d), rest) => (([joinOctets a b, joinOctets c d], true), rest)
      | none =>
        match readGroup t with
        | none => (([], false), s)
        | some (g, rest) =>
          let ((gs, dotted), rest) := readGroups false limit rest
          ((g :: gs, dotted), rest)

/-- Eight groups, or fewer with one `::` in place of at least one group of zeros. -/
def readV6 (s : List Char) : Option (Vector UInt16 8 × List Char) := do
  let ((head, dotted), rest) := readGroups true 8 s
  if h : head.length = 8 then return (⟨head.toArray, by simpa using h⟩, rest)
  if dotted then none
  let rest ← readChar ':' (← readChar ':' rest)
  let ((tail, _), rest) := readGroups true (7 - head.length) rest
  let gs := head ++ List.replicate (8 - head.length - tail.length) 0 ++ tail
  if h : gs.length = 8 then return (⟨gs.toArray, by simpa using h⟩, rest)
  none

/-- The scope after a percent sign; without one it is zero. -/
def readScope (s : List Char) : UInt32 × List Char :=
  match (readChar '%' s).bind (readDecimal UInt32.size true) with
  | some (n, rest) => (n.toUInt32, rest)
  | none => (0, s)

def readHost (s : List Char) : Option (Host × List Char) :=
  match readV4 s with
  | some ((a, b, c, d), rest) => some (.v4 a b c d, rest)
  | none => do
    let (gs, s) ← readV6 (← readChar '[' s)
    let (scope, s) := readScope s
    return (.v6 gs 0 scope, ← readChar ']' s)

def SocketAddress.read? (s : List Char) : Option SocketAddress := do
  let (host, s) ← readHost s
  let (port, rest) ← readDecimal UInt16.size true (← readChar ':' s)
  if rest.isEmpty then return ⟨host, port.toUInt16⟩
  none

def SocketAddress.parse? (s : String) : Option SocketAddress := SocketAddress.read? s.toList

end ReplicaRouting.Net
