import HclQuery.Shell.Token

/-!
# Shell: arithmetic

Sums and products of whole numbers and variables, with parentheses.

Main definitions:

- {lit}`Arithmetic.value?`: the value of an expression.

Main results:

- Theorem {lit}`Arithmetic.value?_nil`: nothing at all has no value.
-/

namespace HclQuery.Shell.Arithmetic

/-- The text without the blanks and dollar signs in front of it. -/
def skip (t : List Char) : List Char :=
  t.dropWhile fun c => c.isWhitespace || c == '$'

/-- The value of two numbers under an operator, unless it divides by zero. -/
def combine? (operator : Char) (a b : Int) : Option Int :=
  if operator = '+' then some (a + b)
  else if operator = '-' then some (a - b)
  else if operator = '*' then some (a * b)
  else if b = 0 then none
  else if operator = '/' then some (a.tdiv b)
  else some (a.tmod b)

/-- The value of a name, which is zero if it stands for no number. -/
def named (look : String → String) (name : List Char) : Int :=
  ((look (String.ofList name)).toInt?).getD 0

mutual

/-- A number, a name, or an expression in parentheses. -/
def atom (look : String → String) (fuel : Nat) (t : List Char) : Option (Int × List Char) :=
  match fuel with
  | 0 => none
  | fuel + 1 =>
    match skip t with
    | [] => none
    | c :: r =>
      if c = '(' then
        match expression look fuel r with
        | some (n, r) =>
          match skip r with
          | ')' :: r => some (n, r)
          | _ => none
        | none => none
      else if c = '-' then (atom look fuel r).map fun (n, r) => (-n, r)
      else if c = '+' then atom look fuel r
      else if c.isDigit then
        let digits := (c :: r).takeWhile Char.isDigit
        (String.ofList digits).toInt?.map fun n => (n, (c :: r).drop digits.length)
      else if isNameChar c then
        let name := (c :: r).takeWhile isNameChar
        some (named look name, (c :: r).drop name.length)
      else none

/-- The rest of a product after its first factors. -/
def factors (look : String → String) (fuel : Nat) (n : Int) (t : List Char) :
    Option (Int × List Char) :=
  match fuel with
  | 0 => none
  | fuel + 1 =>
    match skip t with
    | [] => some (n, [])
    | c :: r =>
      if c = '*' ∨ c = '/' ∨ c = '%' then
        match atom look fuel r with
        | some (m, r) => (combine? c n m).bind fun n => factors look fuel n r
        | none => none
      else some (n, c :: r)

/-- The rest of a sum after its first terms. -/
def terms (look : String → String) (fuel : Nat) (n : Int) (t : List Char) :
    Option (Int × List Char) :=
  match fuel with
  | 0 => none
  | fuel + 1 =>
    match skip t with
    | [] => some (n, [])
    | c :: r =>
      if c = '+' ∨ c = '-' then
        match atom look fuel r with
        | some (m, r) =>
          match factors look fuel m r with
          | some (m, r) => (combine? c n m).bind fun n => terms look fuel n r
          | none => none
        | none => none
      else some (n, c :: r)

/-- A sum. -/
def expression (look : String → String) (fuel : Nat) (t : List Char) : Option (Int × List Char) :=
  match fuel with
  | 0 => none
  | fuel + 1 =>
    match atom look fuel t with
    | some (n, r) =>
      match factors look fuel n r with
      | some (n, r) => terms look fuel n r
      | none => none
    | none => none

end

/-- The value of an expression, given the values of variables. -/
def value? (look : String → String) (t : List Char) : Option Int :=
  match expression look (4 * t.length + 4) t with
  | some (n, r) => if (skip r).isEmpty then some n else none
  | none => none

/-- Nothing at all has no value. -/
theorem value?_nil (look : String → String) : value? look [] = none := rfl

end HclQuery.Shell.Arithmetic
