/-!
# Text: hexadecimal numbers and code points

Main definitions:

- {lit}`hexValue?`: the value of a digit.
- {lit}`hexRun?`: the value of a run of digits.
- {lit}`scalar?`: the character with a code point.
-/

namespace HclQuery.Text

/-- The value of a hexadecimal digit of either case. -/
def hexValue? (c : Char) : Option Nat :=
  let n := c.toNat
  if 48 ≤ n && n ≤ 57 then some (n - 48)
  else if 97 ≤ n && n ≤ 102 then some (n - 87)
  else if 65 ≤ n && n ≤ 70 then some (n - 55)
  else none

/-- The value of a run of hexadecimal digits, read on from `value`. -/
def hexRun? (value : Nat) : List Char → Option Nat
  | [] => some value
  | c :: cs => (hexValue? c).bind fun d => hexRun? (value * 16 + d) cs

/-- The character with a code point, if it is a Unicode scalar value. -/
def scalar? (n : Nat) : Option Char :=
  if h : n.isValidChar then some (Char.ofNatAux n h) else none

end HclQuery.Text
