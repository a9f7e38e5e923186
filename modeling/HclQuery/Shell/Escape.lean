import HclQuery.Text.Utf8

/-!
# Shell: escapes and formats

The texts that {lit}`printf`, {lit}`echo` and {lit}`tr` take hold escapes, some of them for bytes
that are no characters.

Main definitions:

- {lit}`unescape`: the bytes of a text with escapes.
- {lit}`Directive`: how an argument is laid out.
- {lit}`formatted`: the bytes of a format with arguments.
-/

namespace HclQuery.Shell

open Text

/-- The bytes of a text. -/
def bytesOf (s : String) : List UInt8 :=
  Utf8.encode s.toList

/-- An octal digit. -/
def isOctal (c : Char) : Bool :=
  '0' ≤ c && c ≤ '7'

/-- The byte that octal digits denote. -/
def octalByte (digits : List Char) : UInt8 :=
  UInt8.ofNat (digits.foldl (fun n c => n * 8 + (c.toNat - 48)) 0)

/-- The byte that a letter stands for after a backslash. -/
def escapeByte? (c : Char) : Option UInt8 :=
  if c = 'n' then some 0x0a
  else if c = 't' then some 0x09
  else if c = 'r' then some 0x0d
  else if c = 'a' then some 0x07
  else if c = 'b' then some 0x08
  else if c = 'f' then some 0x0c
  else if c = 'v' then some 0x0b
  else if c = '\\' then some 0x5c
  else none

/-- The octal digits at the front of a text, at most three of them. -/
def octalRun (t : List Char) : List Char :=
  (t.take 3).takeWhile isOctal

/-- What an escape stands for, after its backslash, and the rest; with `zeroFirst` a zero stands in
front of the three octal digits. -/
def escape (zeroFirst : Bool) : List Char → List UInt8 × List Char
  | [] => ([0x5c], [])
  | c :: t =>
    match escapeByte? c with
    | some b => ([b], t)
    | none =>
      let start := if zeroFirst && c == '0' then t else c :: t
      let digits := octalRun start
      if isOctal c then ([octalByte digits], start.drop digits.length)
      else (0x5c :: String.utf8EncodeChar c, t)

/-- Reading an escape takes nothing back. -/
theorem escape_length_le (zeroFirst : Bool) (t : List Char) :
    (escape zeroFirst t).2.length ≤ t.length := by
  cases t with
  | nil => simp [escape]
  | cons c t =>
    rw [escape]
    split
    · simp
    · simp only
      split
      · split
        · simp
          omega
        · simp
      · simp

/-- The bytes of a text with escapes. -/
def unescape (zeroFirst : Bool) (t : List Char) : List UInt8 :=
  match t with
  | [] => []
  | c :: r =>
    if c = '\\' then
      (escape zeroFirst r).1 ++ unescape zeroFirst (escape zeroFirst r).2
    else String.utf8EncodeChar c ++ unescape zeroFirst r
termination_by t.length
decreasing_by
  · exact Nat.lt_succ_of_le (escape_length_le ..)
  · simp

/-! ## Formats -/

/-- How an argument is laid out. -/
structure Directive where
  /-- Whether it stands at the left of its field. -/
  leftwards : Bool
  /-- Whether zeros fill its field. -/
  zeros : Bool
  /-- How many characters its field has at least. -/
  width : Nat
  /-- How many bytes of it are shown at most. -/
  precision : Option Nat
  letter : Char
  deriving DecidableEq, Repr

/-- The number that decimal digits denote. -/
def decimal (digits : List Char) : Nat :=
  digits.foldl (fun n c => n * 10 + (c.toNat - 48)) 0

/-- The directive after a percent sign, and how many characters it has. -/
def Directive.ofText (t : List Char) : Directive × Nat :=
  let flags := t.takeWhile fun c => "-0+ #".toList.contains c
  let t := t.drop flags.length
  let width := t.takeWhile Char.isDigit
  let t := t.drop width.length
  let places :=
    match t with
    | '.' :: r => some (r.takeWhile Char.isDigit)
    | _ => none
  let dotted := (places.map fun ds => ds.length + 1).getD 0
  (⟨flags.contains '-', flags.contains '0', decimal width, places.map decimal,
    (t.drop dotted).headD 's'⟩, flags.length + width.length + dotted + 1)

/-- A whole number, as a directive with the given letter shows it. -/
def numeral (letter : Char) (n : Int) : String :=
  if letter = 'o' then String.ofList (Nat.toDigits 8 n.toNat)
  else if letter = 'x' then String.ofList (Nat.toDigits 16 n.toNat)
  else if letter = 'X' then (String.ofList (Nat.toDigits 16 n.toNat)).toUpper
  else s!"{n}"

/-- The bytes of an argument in its field. -/
def Directive.apply (d : Directive) (argument : String) : List UInt8 :=
  let isNumber := "diuoxX".toList.contains d.letter
  let text :=
    if d.letter = 'b' then unescape true argument.toList
    else if d.letter = 'c' then (bytesOf argument).take 1
    else if isNumber then bytesOf (numeral d.letter (argument.toInt?.getD 0))
    else
      match d.precision with
      | some n => (bytesOf argument).take n
      | none => bytesOf argument
  let missing := d.width - text.length
  if d.leftwards then text ++ List.replicate missing 0x20
  else if d.zeros && isNumber then List.replicate missing 0x30 ++ text
  else List.replicate missing 0x20 ++ text

/-- The bytes of a format, with the arguments that are left. -/
def formatOnce (t : List Char) (arguments : List String) : List UInt8 × List String :=
  match t with
  | [] => ([], arguments)
  | c :: r =>
    if c = '\\' then
      let (bytes, left) := formatOnce (escape false r).2 arguments
      ((escape false r).1 ++ bytes, left)
    else if c = '%' then
      match r with
      | [] => ([0x25], arguments)
      | d :: u =>
        if d = '%' then
          let (bytes, left) := formatOnce u arguments
          (0x25 :: bytes, left)
        else
          let (directive, length) := Directive.ofText (d :: u)
          let (bytes, left) := formatOnce ((d :: u).drop length) arguments.tail
          (directive.apply (arguments.headD "") ++ bytes, left)
    else
      let (bytes, left) := formatOnce r arguments
      (String.utf8EncodeChar c ++ bytes, left)
termination_by t.length
decreasing_by
  · exact Nat.lt_succ_of_le (escape_length_le ..)
  all_goals simp only [List.length_cons, List.length_drop]; omega

/-- The bytes of a format, which is used again, at most `fuel` times, as long as arguments are
left. -/
def formatFrom (format : List Char) : Nat → List String → List UInt8
  | 0, _ => []
  | fuel + 1, arguments =>
    let (bytes, left) := formatOnce format arguments
    if left.isEmpty ∨ left.length = arguments.length then bytes
    else bytes ++ formatFrom format fuel left

/-- The bytes of a format with arguments. -/
def formatted (format : String) (arguments : List String) : List UInt8 :=
  formatFrom format.toList (arguments.length + 1) arguments

end HclQuery.Shell
