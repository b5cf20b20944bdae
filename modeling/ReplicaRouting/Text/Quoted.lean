import ReplicaRouting.Text.Spelled
/-!
Quotations: a text between double quotes, on one line and in visible characters.
-/

namespace ReplicaRouting.Text

/-- How a quotation writes one character. -/
def spell (c : Char) : List Char :=
  match c with
  | '\n' => ['\\', 'n']
  | '\t' => ['\\', 't']
  | '\r' => ['\\', 'r']
  | '\x00' => ['\\', '0']
  | '"' => ['\\', '"']
  | '\\' => ['\\', '\\']
  | c => if isSpelled c then '\\' :: 'u' :: '\x7b' :: Nat.toDigits 16 c.toNat ++ ['\x7d'] else [c]

def quote (s : String) : String := String.ofList ('"' :: s.toList.flatMap spell ++ ['"'])

end ReplicaRouting.Text
