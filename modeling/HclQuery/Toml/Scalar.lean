import HclQuery.Decimal.Binary64
import HclQuery.Text.Hex
import HclQuery.Toml.Datetime

/-!
# TOML: scalars

The values without parts: strings, whole numbers of 64 bits, floating point numbers, booleans, and
dates and times.  All but strings are written as bare words.

Main definitions:

- {lit}`Scalar`: a value without parts.
- {lit}`Scalar.ofWord?`: the value of a bare word.
-/

namespace HclQuery.Toml

open Decimal (Binary64)

/-- A value without parts. -/
inductive Scalar where
  | string (s : String)
  | integer (n : Int)
  | float (x : Binary64)
  | boolean (b : Bool)
  | datetime (text : String)
  deriving DecidableEq, Repr

/-! ## Digits -/

/-- The digits at the front of a text after a first one, and the rest.  One underscore may stand
between two digits. -/
def moreDigits (digit : Char → Bool) : List Char → List Char × List Char
  | [] => ([], [])
  | [c] => if digit c then ([c], []) else ([], [c])
  | c :: d :: t =>
    if digit c then
      let (ds, r) := moreDigits digit (d :: t)
      (c :: ds, r)
    else if c = '_' && digit d then
      let (ds, r) := moreDigits digit t
      (d :: ds, r)
    else ([], c :: d :: t)

/-- The digits at the front of a text, of which there is at least one, and the rest. -/
def digits? (digit : Char → Bool) : List Char → Option (List Char × List Char)
  | [] => none
  | c :: t =>
    if digit c then
      let (ds, r) := moreDigits digit t
      some (c :: ds, r)
    else none

/-- The digits of a whole number at the front of a text, without leading zeros, and the rest. -/
def wholeDigits? (t : List Char) : Option (List Char × List Char) :=
  match digits? isDigit t with
  | none => none
  | some (ds, r) => if ds.head? = some '0' ∧ ds ≠ ['0'] then none else some (ds, r)

/-- The sign at the front of a text, negative or not, and the rest. -/
def sign (t : List Char) : Bool × List Char :=
  match t with
  | '-' :: r => (true, r)
  | '+' :: r => (false, r)
  | _ => (false, t)

/-! ## Whole numbers -/

/-- The number that digits of a base denote. -/
def inBase (base : Nat) (ds : List Char) : Nat :=
  ds.foldl (fun n c => n * base + (Text.hexValue? c).getD 0) 0

/-- A digit of a base up to 16. -/
def isBaseDigit (base : Nat) (c : Char) : Bool :=
  (Text.hexValue? c).any (· < base)

/-- A whole number, if it has 64 bits. -/
def integer? (negative : Bool) (n : Nat) : Option Scalar :=
  if negative then if n ≤ Nat.pow 2 63 then some (.integer (-n)) else none
  else if n < Nat.pow 2 63 then some (.integer n) else none

/-- The whole number with the digits of a base that make up a text. -/
def based? (base : Nat) (t : List Char) : Option Scalar :=
  match digits? (isBaseDigit base) t with
  | some (ds, []) => integer? false (inBase base ds)
  | _ => none

/-! ## Floating point numbers -/

/-- The number `digits * 10 ^ exponent`, if it does not round to an infinity. -/
def float? (negative : Bool) (digits : Nat) (exponent : Int) : Option Scalar :=
  let power := exponent + (Nat.toDigits 10 digits).length
  let x :=
    if digits = 0 ∨ power < -400 then Binary64.ofFraction negative 0 1
    else if 400 < power then .infinite negative
    else if exponent < 0 then Binary64.ofFraction negative digits (Nat.pow 10 exponent.natAbs)
    else Binary64.ofFraction negative (digits * Nat.pow 10 exponent.natAbs) 1
  if x.isInfinite then none else some (.float x)

/-- The exponent that makes up a text; no text stands for none. -/
def exponent? (t : List Char) : Option Int :=
  match t with
  | [] => some 0
  | e :: t =>
    if e = 'e' ∨ e = 'E' then
      let (negative, t) := sign t
      match digits? isDigit t with
      | some (ds, []) => some (if negative then -(decimal ds : Int) else decimal ds)
      | _ => none
    else none

/-- The number that begins with the digits of a whole number and goes on with a text. -/
def numberFrom? (negative : Bool) (whole : List Char) (t : List Char) : Option Scalar :=
  match t with
  | [] => integer? negative (decimal whole)
  | '.' :: t => do
    let (fraction, t) ← digits? isDigit t
    let exponent ← exponent? t
    float? negative (decimal (whole ++ fraction)) (exponent - fraction.length)
  | t => do
    let exponent ← exponent? t
    float? negative (decimal whole) exponent

/-- The number that makes up a text. -/
def numeral? (t : List Char) : Option Scalar :=
  let (negative, r) := sign t
  if r = ['i', 'n', 'f'] then some (.float (.infinite negative))
  else if r = ['n', 'a', 'n'] then some (.float .nan)
  else
    match wholeDigits? r with
    | none => none
    | some (whole, r) => numberFrom? negative whole r

/-! ## Bare words -/

/-- The value of a bare word. -/
def Scalar.ofWord? (t : List Char) : Option Scalar :=
  match t with
  | ['t', 'r', 'u', 'e'] => some (.boolean true)
  | ['f', 'a', 'l', 's', 'e'] => some (.boolean false)
  | '0' :: 'x' :: r => based? 16 r
  | '0' :: 'o' :: r => based? 8 r
  | '0' :: 'b' :: r => based? 2 r
  | _ => if isDatetime t then some (.datetime (String.ofList t)) else numeral? t

end HclQuery.Toml
