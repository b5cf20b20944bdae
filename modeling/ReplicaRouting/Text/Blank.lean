/-!
White space and trimming. A blank is one of the twenty-five characters of the Unicode property.
-/

namespace ReplicaRouting.Text

def isBlank (c : Char) : Bool :=
  let n := c.toNat
  (9 ≤ n && n ≤ 13) || n == 0x20 || n == 0x85 || n == 0xa0 || n == 0x1680 ||
    (0x2000 ≤ n && n ≤ 0x200a) || n == 0x2028 || n == 0x2029 || n == 0x202f || n == 0x205f || n == 0x3000

/-- Drops the blanks at both ends. -/
def trim (s : List Char) : List Char :=
  ((s.dropWhile isBlank).reverse.dropWhile isBlank).reverse

/-- Some character is no blank. -/
def hasInk (s : String) : Bool := s.toList.any fun c => !isBlank c

@[simp] theorem trim_nil : trim [] = [] := rfl

end ReplicaRouting.Text
