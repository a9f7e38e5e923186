/-!
# Decimal: binary64 numbers

A number of the binary64 format is a sign, a mantissa below 2^53 and an exponent.  Every operation
is computed exactly on fractions and then rounded to the nearest number, ties to the even mantissa.

Main results:

- Theorem {lit}`roundDiv_zero`: nothing rounds to nothing.
- Theorem {lit}`roundDiv_mul`: a whole number of units is kept.
-/

namespace HclQuery.Decimal

/-- A binary64 number. -/
inductive Binary64 where
  /-- `± mantissa * 2 ^ exponent`. -/
  | finite (negative : Bool) (mantissa : Nat) (exponent : Int)
  /-- An infinity. -/
  | infinite (negative : Bool)
  /-- No number. -/
  | nan
  deriving DecidableEq, Repr

/-- The quotient rounded to the nearest whole number, ties to the even one. -/
def roundDiv (num den : Nat) : Nat :=
  let q := num / den
  let r := num % den
  if den < 2 * r ∨ (den = 2 * r ∧ q % 2 = 1) then q + 1 else q

/-- Zero is rounded to zero. -/
theorem roundDiv_zero (den : Nat) : roundDiv 0 den = 0 := by
  simp only [roundDiv, Nat.zero_div, Nat.zero_mod]
  split
  · omega
  · rfl

/-- A whole number of units is kept. -/
theorem roundDiv_mul (q : Nat) {den : Nat} (h : 0 < den) : roundDiv (q * den) den = q := by
  simp only [roundDiv, Nat.mul_div_cancel q h, Nat.mul_mod_left]
  split
  · omega
  · rfl

/-- The fraction `num / den * 2 ^ e` as a numerator and a denominator. -/
def scale (num den : Nat) (e : Int) : Nat × Nat :=
  if e < 0 then (num, den * Nat.pow 2 e.natAbs) else (num * Nat.pow 2 e.natAbs, den)

namespace Binary64

/-- The least exponent of the format. -/
def minExponent : Int := -1074

/-- The greatest exponent of the format. -/
def maxExponent : Int := 971

/-- The exponent at which the mantissa of a positive fraction has 53 bits, or the least one. -/
def exponentOf (num den : Nat) : Int :=
  let e : Int := (num.log2 : Int) - den.log2 - 52
  let scaled := scale num den (-e)
  max minExponent (if scaled.1 / scaled.2 < Nat.pow 2 52 then e - 1 else e)

/-- The number nearest to a fraction. -/
def ofFraction (negative : Bool) (num den : Nat) : Binary64 :=
  if num = 0 then .finite negative 0 minExponent
  else
    let e := exponentOf num den
    let scaled := scale num den (-e)
    let m := roundDiv scaled.1 scaled.2
    let m' := if m = Nat.pow 2 53 then Nat.pow 2 52 else m
    let e' := if m = Nat.pow 2 53 then e + 1 else e
    if maxExponent < e' then .infinite negative else .finite negative m' e'

/-- The number nearest to a natural number. -/
def ofNat (n : Nat) : Binary64 :=
  ofFraction false n 1

/-- The number nearest to a power of ten. -/
def pow10 (k : Nat) : Binary64 :=
  ofNat (Nat.pow 10 k)

/-- The magnitude of a finite number as a fraction; zero for the others. -/
def fraction : Binary64 → Nat × Nat
  | finite _ m e => scale m 1 e
  | _ => (0, 1)

/-- The number is negative, or a zero with a minus sign. -/
def isNegative : Binary64 → Bool
  | finite s _ _ => s
  | infinite s => s
  | nan => false

/-- The number is an infinity. -/
def isInfinite : Binary64 → Bool
  | infinite _ => true
  | _ => false

/-- The number is zero. -/
def isZero : Binary64 → Bool
  | finite _ m _ => m == 0
  | _ => false

/-- The number with its sign changed. -/
def neg : Binary64 → Binary64
  | finite s m e => finite (!s) m e
  | infinite s => infinite (!s)
  | nan => nan

/-- The rounded product of two finite numbers. -/
def mul (a b : Binary64) : Binary64 :=
  let (p, q) := a.fraction
  let (r, s) := b.fraction
  ofFraction (a.isNegative != b.isNegative) (p * r) (q * s)

/-- The rounded quotient of two finite numbers, the second one not zero. -/
def div (a b : Binary64) : Binary64 :=
  let (p, q) := a.fraction
  let (r, s) := b.fraction
  ofFraction (a.isNegative != b.isNegative) (p * s) (q * r)

end Binary64

end HclQuery.Decimal
