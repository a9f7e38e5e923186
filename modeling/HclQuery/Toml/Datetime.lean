import HclQuery.Toml.Quoted

/-!
# TOML: dates and times

A value may be a date, a time, or a date with a time and perhaps an offset.  Seconds may be left
out, and a fraction may follow them.

Main definitions:

- {lit}`isDate`: whether a text is a date.
- {lit}`isDatetime`: whether a text is a date, a time or both.
-/

namespace HclQuery.Toml

/-- A decimal digit. -/
def isDigit (c : Char) : Bool :=
  '0' ≤ c && c ≤ '9'

/-- The number that decimal digits denote. -/
def decimal (digits : List Char) : Nat :=
  digits.foldl (fun n c => n * 10 + (c.toNat - 48)) 0

/-- The number at the front of a text that has exactly so many digits, and the rest. -/
def number? (width : Nat) (t : List Char) : Option (Nat × List Char) :=
  let digits := t.takeWhile isDigit
  if digits.length = width then some (decimal digits, t.dropWhile isDigit) else none

/-- The text after a character at its front. -/
def after? (c : Char) : List Char → Option (List Char)
  | [] => none
  | d :: t => if d = c then some t else none

/-- Whether a year has a leap day. -/
def isLeapYear (year : Nat) : Bool :=
  year % 4 == 0 && (year % 100 != 0 || year % 400 == 0)

/-- The number of days of a month. -/
def daysIn (year month : Nat) : Nat :=
  if month = 2 then if isLeapYear year then 29 else 28
  else if month = 4 ∨ month = 6 ∨ month = 9 ∨ month = 11 then 30
  else 31

/-- The text after the date at its front. -/
def afterDate? (t : List Char) : Option (List Char) := do
  let (year, t) ← number? 4 t
  let (month, t) ← number? 2 (← after? '-' t)
  let (day, t) ← number? 2 (← after? '-' t)
  if 1 ≤ month ∧ month ≤ 12 ∧ 1 ≤ day ∧ day ≤ daysIn year month then some t else none

/-- The text after the fraction of a second, if there is one. -/
def afterFraction? (t : List Char) : Option (List Char) :=
  match after? '.' t with
  | none => some t
  | some t => if t.head?.any isDigit then some (t.dropWhile isDigit) else none

/-- The text after the seconds of a time, if they are given. -/
def afterSeconds? (t : List Char) : Option (List Char) :=
  match after? ':' t with
  | none => some t
  | some t => do
    let (second, t) ← number? 2 t
    if second ≤ 60 then afterFraction? t else none

/-- The text after the time of day at its front. -/
def afterTime? (t : List Char) : Option (List Char) := do
  let (hour, t) ← number? 2 t
  let (minute, t) ← number? 2 (← after? ':' t)
  if hour ≤ 23 ∧ minute ≤ 59 then afterSeconds? t else none

/-- Whether a text is an offset from universal time, or empty. -/
def isOffset (t : List Char) : Bool :=
  match t with
  | [] => true
  | ['z'] => true
  | ['Z'] => true
  | sign :: t =>
    if sign = '+' ∨ sign = '-' then
      match number? 2 t with
      | none => false
      | some (hours, t) =>
        match (after? ':' t).bind (number? 2) with
        | some (minutes, []) => hours * 60 + minutes ≤ 24 * 60
        | _ => false
    else false

/-- The characters that may divide a date from a time. -/
def isTimeMark (c : Char) : Bool :=
  c == 'T' || c == 't' || c == ' '

/-- Whether a text is a date. -/
def isDate (t : List Char) : Bool :=
  afterDate? t == some []

/-- Whether a text is a date, a time or both. -/
def isDatetime (t : List Char) : Bool :=
  match afterDate? t with
  | none => afterTime? t == some []
  | some [] => true
  | some (c :: t) => isTimeMark c && (afterTime? t).any isOffset

end HclQuery.Toml
