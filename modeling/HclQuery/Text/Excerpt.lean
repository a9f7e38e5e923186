import HclQuery.Text.CharClass

/-!
# Text: quoted excerpts

Messages quote a piece of input in double quotes, with the characters that would be misread written
as escapes.
-/

namespace HclQuery.Text

/-- The code point in lower-case hexadecimal, without leading zeros. -/
def hexDigits (n : Nat) : List Char :=
  Nat.toDigits 16 n

/-- One character of an excerpt: the common escapes by letter, other invisible characters by code
point, all else as it is. -/
def excerptChar (c : Char) : List Char :=
  match c with
  | '"' => ['\\', '"']
  | '\\' => ['\\', '\\']
  | '\n' => ['\\', 'n']
  | '\r' => ['\\', 'r']
  | '\t' => ['\\', 't']
  | '\x00' => ['\\', '0']
  | c => if isPlain c then [c] else ['\\', 'u', '{'] ++ hexDigits c.toNat ++ ['}']

/-- The text in double quotes, as messages show it. -/
def excerpt (s : String) : String :=
  String.ofList ('"' :: s.toList.flatMap excerptChar ++ ['"'])

end HclQuery.Text
