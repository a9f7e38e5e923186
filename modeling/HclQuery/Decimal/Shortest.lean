import HclQuery.Decimal.Binary64

/-!
# Decimal: shortest texts

A number is shown with the fewest decimal digits that read back as the same number, and among those
with the digits nearest to it.

Main definitions:

- {lit}`shortest`: the digits and the power of ten of a positive number.
- {lit}`Style`: where positional notation ends.
- {lit}`Style.write`: the text of a number.
-/

namespace HclQuery.Decimal

/-- The number `digits * 10 ^ exponent`. -/
structure Scaled where
  digits : Nat
  exponent : Int
  deriving DecidableEq, Repr

/-- The comparison `a / b ≤ c / d`. -/
def fractionLe (a b c d : Nat) : Bool :=
  a * d ≤ c * b

/-- The comparison `a / b < c / d`. -/
def fractionLt (a b c d : Nat) : Bool :=
  a * d < c * b

/-- The number of decimal digits of a natural number. -/
def digitCount (n : Nat) : Nat :=
  (Nat.toDigits 10 n).length

/-- The power of ten of the first digit of a positive fraction. -/
def leadingPower (num den : Nat) : Int :=
  if den ≤ num then (digitCount (num / den) : Int) - 1
  else
    match (List.range 400).find? fun t => den ≤ num * Nat.pow 10 t with
    | some t => -(t : Int)
    | none => -400

/-- The fraction `num / den` in units of `10 ^ k`. -/
def inUnits (num den : Nat) (k : Int) : Nat × Nat :=
  if k < 0 then (num * Nat.pow 10 k.natAbs, den) else (num, den * Nat.pow 10 k.natAbs)

/-- The digits without the zeros at their end, each of which raises the power by one. -/
def dropZeros : Nat → Scaled → Scaled
  | 0, s => s
  | fuel + 1, s =>
    if s.digits ≠ 0 ∧ s.digits % 10 = 0 then dropZeros fuel ⟨s.digits / 10, s.exponent + 1⟩ else s

/-- The reals that round to `m * 2 ^ e`, in quarters of `2 ^ e`: the bounds, and whether they belong
to them. -/
def neighbourhood (m : Nat) (e : Int) : Nat × Nat × Bool :=
  let below := if m = Nat.pow 2 52 ∧ Binary64.minExponent < e then 1 else 2
  (4 * m - below, 4 * m + 2, m % 2 == 0)

/-- The number nearest to `m * 2 ^ e` among those with so many digits that round to it. -/
def withDigits (m : Nat) (e : Int) (count : Nat) : Option Scaled :=
  let (low, high, closed) := neighbourhood m e
  let (num, den) := scale (4 * m) 4 e
  let k := leadingPower num den - count + 1
  let (n, d) := inUnits num den k
  let (ln, ld) := scale low 4 e
  let (l, l') := inUnits ln ld k
  let (hn, hd) := scale high 4 e
  let (h, h') := inUnits hn hd k
  let inside (x : Nat) : Bool :=
    if closed then fractionLe l l' x 1 && fractionLe x 1 h h'
    else fractionLt l l' x 1 && fractionLt x 1 h h'
  let q := n / d
  let nearest := roundDiv n d
  let other := if nearest = q then q + 1 else q
  if inside nearest then some ⟨nearest, k⟩
  else if inside other then some ⟨other, k⟩
  else none

/-- The shortest digits that read back as `m * 2 ^ e`, which is not zero. -/
def shortest (m : Nat) (e : Int) : Scaled :=
  match (List.range 17).findSome? fun i => withDigits m e (i + 1) with
  | some s => dropZeros 20 s
  | none => ⟨m, 0⟩

/-- How numbers are written: positionally if the power of their first digit lies in a range, and
with an exponent outside of it. -/
structure Style where
  /-- The least power written positionally; none if there is no least one. -/
  lowest : Option Int
  /-- The greatest power written positionally; none if there is no greatest one. -/
  highest : Option Int

/-- Every number is written positionally. -/
def Style.positional : Style := ⟨none, none⟩

/-- Powers from -5 to 15 are written positionally. -/
def Style.compact : Style := ⟨some (-5), some 15⟩

/-- The digits with a point after `before` of them, and at least one digit on either side. -/
def withPoint (digits : List Char) (before : Int) : List Char :=
  if before ≤ 0 then ['0', '.'] ++ List.replicate before.natAbs '0' ++ digits
  else
    let n := before.natAbs
    let whole := digits.take n ++ List.replicate (n - digits.length) '0'
    let rest := digits.drop n
    whole ++ '.' :: (if rest.isEmpty then ['0'] else rest)

/-- The digits with a point after the first of them, and an exponent with its sign. -/
def withExponent (digits : List Char) (power : Int) : List Char :=
  let rest := digits.drop 1
  digits.take 1 ++ (if rest.isEmpty then [] else '.' :: rest) ++
    ['e', if power < 0 then '-' else '+'] ++ Nat.toDigits 10 power.natAbs

/-- The text of the magnitude `m * 2 ^ e`. -/
def Style.writeMagnitude (style : Style) (m : Nat) (e : Int) : List Char :=
  if m = 0 then ['0', '.', '0']
  else
    let s := shortest m e
    let digits := Nat.toDigits 10 s.digits
    let power := s.exponent + digits.length - 1
    if style.lowest.all (· ≤ power) && style.highest.all (power ≤ ·) then
      withPoint digits (power + 1)
    else withExponent digits power

/-- The text of a number. -/
def Style.write (style : Style) : Binary64 → String
  | .nan => "NaN"
  | .infinite s => if s then "-inf" else "inf"
  | .finite s m e =>
    String.ofList ((if s then ['-'] else []) ++ style.writeMagnitude m e)

end HclQuery.Decimal
