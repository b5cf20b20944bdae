/-!
Keys and values are byte strings. Keys are ordered byte by byte, a proper prefix first.
-/

namespace ReplicaRouting.Engine

abbrev Bytes := List UInt8

def compare : Bytes → Bytes → Ordering
  | [], [] => .eq
  | [], _ :: _ => .lt
  | _ :: _, [] => .gt
  | a :: as, b :: bs => if a < b then .lt else if b < a then .gt else compare as bs

/-- The bytes in reverse without the run of `0xff` at the front, the next one raised by one. -/
def raiseReversed : Bytes → Option Bytes
  | [] => none
  | b :: bs => if b = 0xff then raiseReversed bs else some ((b + 1) :: bs)

/-- The least key above all keys with this prefix, if there is one. -/
def prefixEnd? (p : Bytes) : Option Bytes := (raiseReversed p.reverse).map List.reverse

end ReplicaRouting.Engine
