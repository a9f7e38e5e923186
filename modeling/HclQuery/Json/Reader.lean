import HclQuery.Json.Fault
import HclQuery.Text.Utf8

/-!
# JSON: reading

The parts that every JSON reader needs: blanks, words, strings and numbers.  A reader takes bytes
off the front of its input and gives the rest back.

Main definitions:

- {lit}`Reader`: a function from bytes to a value and the bytes after it.
- {lit}`string`: a string, checked and with its escapes replaced.
- {lit}`number`: a number as a message shows it.
- {lit}`mismatch`: the refusal of a value of the wrong shape.
-/

namespace HclQuery.Json

open Decimal (Binary64)

/-- Reads a value off the front of the bytes and gives the rest back. -/
abbrev Reader (α : Type) := List UInt8 → Except Fault (α × List UInt8)

namespace Byte

/-- The byte `"`. -/
abbrev quote : UInt8 := 0x22
/-- The byte `+`. -/
abbrev plus : UInt8 := 0x2b
/-- The byte `,`. -/
abbrev comma : UInt8 := 0x2c
/-- The byte `-`. -/
abbrev minus : UInt8 := 0x2d
/-- The byte `.`. -/
abbrev point : UInt8 := 0x2e
/-- The byte `/`. -/
abbrev slash : UInt8 := 0x2f
/-- The byte `0`. -/
abbrev zero : UInt8 := 0x30
/-- The byte `:`. -/
abbrev colon : UInt8 := 0x3a
/-- The byte `[`. -/
abbrev openBracket : UInt8 := 0x5b
/-- The byte `\`. -/
abbrev backslash : UInt8 := 0x5c
/-- The byte `]`. -/
abbrev closeBracket : UInt8 := 0x5d
/-- The byte `{`. -/
abbrev openBrace : UInt8 := 0x7b
/-- The byte `}`. -/
abbrev closeBrace : UInt8 := 0x7d

/-- Space, newline, tab and carriage return. -/
def isSpace (b : UInt8) : Bool :=
  b == 0x20 || b == 0x0a || b == 0x09 || b == 0x0d

/-- The decimal digits. -/
def isDigit (b : UInt8) : Bool :=
  0x30 ≤ b && b ≤ 0x39

/-- The value of a decimal digit. -/
def digit (b : UInt8) : Nat :=
  b.toNat - 0x30

/-- The letters that begin an exponent. -/
def isExponent (b : UInt8) : Bool :=
  b == 0x65 || b == 0x45

/-- The value of a hexadecimal digit. -/
def hex? (b : UInt8) : Option Nat :=
  let n := b.toNat
  if 0x30 ≤ n && n ≤ 0x39 then some (n - 0x30)
  else if 0x61 ≤ n && n ≤ 0x66 then some (n - 0x57)
  else if 0x41 ≤ n && n ≤ 0x46 then some (n - 0x37)
  else none

end Byte

open Byte

/-- The fault of the next byte, which its place includes. -/
def faultAt (cause : Cause) (s : List UInt8) : Fault :=
  ⟨cause, s.tail⟩

/-- The bytes without the blanks in front of them. -/
def skipSpace (s : List UInt8) : List UInt8 :=
  s.dropWhile isSpace

/-- The bytes after the given ones, which the input has to go on with. -/
def word : List UInt8 → List UInt8 → Except Fault (List UInt8)
  | [], s => .ok s
  | _ :: _, [] => .error ⟨.endOfValue, []⟩
  | e :: es, b :: s => if b = e then word es s else .error ⟨.expectedWord, s⟩

/-- The letters of `null` after the first. -/
def nullRest : List UInt8 := [0x75, 0x6c, 0x6c]

/-- The letters of `true` after the first. -/
def trueRest : List UInt8 := [0x72, 0x75, 0x65]

/-- The letters of `false` after the first. -/
def falseRest : List UInt8 := [0x61, 0x6c, 0x73, 0x65]

/-- The byte after another one is the first of `s`. -/
def headIs (p : UInt8 → Bool) (s : List UInt8) : Bool :=
  s.head?.any p

/-! ## Strings -/

/-- Four hexadecimal digits. -/
def hexEscape (s : List UInt8) : Except Fault (Nat × List UInt8) :=
  match s with
  | a :: b :: c :: d :: rest =>
    match hex? a, hex? b, hex? c, hex? d with
    | some a, some b, some c, some d => .ok (((a * 16 + b) * 16 + c) * 16 + d, rest)
    | _, _, _, _ => .error ⟨.invalidEscape, rest⟩
  | _ => .error ⟨.endOfString, []⟩

/-- The trailing surrogate that has to follow a leading one. -/
def trailingSurrogate (s : List UInt8) : Except Fault (Nat × List UInt8) :=
  match s with
  | [] => .error ⟨.endOfString, []⟩
  | b :: s =>
    if b ≠ backslash then .error ⟨.endOfEscape, s⟩
    else
      match s with
      | [] => .error ⟨.endOfString, []⟩
      | b :: s =>
        if b ≠ 0x75 then .error ⟨.endOfEscape, s⟩
        else
          match hexEscape s with
          | .error f => .error f
          | .ok (n, s) =>
            if n < 0xdc00 || 0xdfff < n then .error ⟨.loneSurrogate, s⟩ else .ok (n, s)

/-- The character of a `\u` escape, of which the digits come next; one beyond U+FFFF is given by two
escapes. -/
def codePoint (s : List UInt8) : Except Fault (Char × List UInt8) :=
  match hexEscape s with
  | .error f => .error f
  | .ok (n, s) =>
    if 0xdc00 ≤ n && n ≤ 0xdfff then .error ⟨.loneSurrogate, s⟩
    else if 0xd800 ≤ n && n ≤ 0xdbff then
      match trailingSurrogate s with
      | .error f => .error f
      | .ok (m, s) => .ok (Char.ofNat ((n - 0xd800) * 0x400 + (m - 0xdc00) + 0x10000), s)
    else .ok (Char.ofNat n, s)

/-- The byte that an escape letter stands for. -/
def escapeLetter? (b : UInt8) : Option UInt8 :=
  if b = quote || b = backslash || b = slash then some b
  else if b = 0x62 then some 0x08
  else if b = 0x66 then some 0x0c
  else if b = 0x6e then some 0x0a
  else if b = 0x72 then some 0x0d
  else if b = 0x74 then some 0x09
  else none

/-- The bytes that an escape stands for, after its backslash. -/
def escape (s : List UInt8) : Except Fault (List UInt8 × List UInt8) :=
  match s with
  | [] => .error ⟨.endOfString, []⟩
  | b :: s =>
    match escapeLetter? b with
    | some e => .ok ([e], s)
    | none =>
      if b = 0x75 then
        match codePoint s with
        | .error f => .error f
        | .ok (c, s) => .ok (String.utf8EncodeChar c, s)
      else .error ⟨.invalidEscape, s⟩

/-- A hexadecimal escape takes at least one byte. -/
theorem hexEscape_length {s r : List UInt8} {n : Nat} (h : hexEscape s = .ok (n, r)) :
    r.length < s.length := by
  unfold hexEscape at h
  split at h
  · split at h
    · obtain ⟨-, rfl⟩ : _ ∧ _ := by simpa using h
      simp only [List.length_cons]
      omega
    · simp at h
  · simp at h

/-- A trailing surrogate takes at least one byte. -/
theorem trailingSurrogate_length {s r : List UInt8} {n : Nat}
    (h : trailingSurrogate s = .ok (n, r)) : r.length < s.length := by
  unfold trailingSurrogate at h
  split at h
  · simp at h
  · split at h
    · simp at h
    · split at h
      · simp at h
      · split at h
        · simp at h
        · split at h
          · simp at h
          · next hx =>
            have := hexEscape_length hx
            split at h
            · simp at h
            · obtain ⟨-, rfl⟩ : _ ∧ _ := by simpa using h
              simp only [List.length_cons]
              omega

/-- An escaped code point takes at least one byte. -/
theorem codePoint_length {s r : List UInt8} {c : Char} (h : codePoint s = .ok (c, r)) :
    r.length < s.length := by
  unfold codePoint at h
  split at h
  · simp at h
  · next hx =>
    have := hexEscape_length hx
    split at h
    · simp at h
    · split at h
      · split at h
        · simp at h
        · next ht =>
          have := trailingSurrogate_length ht
          obtain ⟨-, rfl⟩ : _ ∧ _ := by simpa using h
          omega
      · obtain ⟨-, rfl⟩ : _ ∧ _ := by simpa using h
        omega

/-- An escape takes at least one byte. -/
theorem escape_length {s e r : List UInt8} (h : escape s = .ok (e, r)) : r.length < s.length := by
  unfold escape at h
  split at h
  · simp at h
  · split at h
    · obtain ⟨-, rfl⟩ : _ ∧ _ := by simpa using h
      simp
    · split at h
      · split at h
        · simp at h
        · next hc =>
          have := codePoint_length hc
          obtain ⟨-, rfl⟩ : _ ∧ _ := by simpa using h
          simp only [List.length_cons]
          omega
      · simp at h

/-- The bytes of a string up to its closing quote, with the escapes replaced. -/
def content (s : List UInt8) : Except Fault (List UInt8 × List UInt8) :=
  match s with
  | [] => .error ⟨.endOfString, []⟩
  | b :: s =>
    if b = quote then .ok ([], s)
    else if b = backslash then
      match _h : escape s with
      | .error f => .error f
      | .ok (e, r) =>
        match content r with
        | .error f => .error f
        | .ok (bytes, r) => .ok (e ++ bytes, r)
    else if b < 0x20 then .error ⟨.controlCharacter, s⟩
    else
      match content s with
      | .error f => .error f
      | .ok (bytes, r) => .ok (b :: bytes, r)
termination_by s.length
decreasing_by
  · have := escape_length _h
    simp only [List.length_cons]
    omega
  · simp

/-- The characters of a string, of which the opening quote has been read. -/
def string : Reader String := fun s =>
  match content s with
  | .error f => .error f
  | .ok (bytes, r) =>
    match Text.Utf8.decode bytes with
    | .ok cs => .ok (String.ofList cs, r)
    | .error _ =>
      match Text.Utf8.decode (s.take (s.length - r.length - 1)) with
      | .ok _ => .error ⟨.invalidCodePoint, r⟩
      | .error fault => .error ⟨.invalidCodePoint, s.drop (fault.index + 1)⟩

/-! ## Numbers -/

/-- The greatest whole number whose digits are all taken into account. -/
def maxSignificand : Nat := 18446744073709551615

/-- The digits taken up on top of a number while it stays in range: the number, how many digits were
taken, and how many were left. -/
def takeDigits (n : Nat) : List UInt8 → Nat × Nat × Nat
  | [] => (n, 0, 0)
  | d :: ds =>
    if maxSignificand < n * 10 + digit d then (n, 0, ds.length + 1)
    else
      let (m, taken, left) := takeDigits (n * 10 + digit d) ds
      (m, taken + 1, left)

/-- The number divided by powers of ten of at most 308 until none is left. -/
def shrink : Nat → Binary64 → Nat → Binary64
  | 0, x, _ => x
  | fuel + 1, x, k =>
    if k ≤ 308 then x.div (.pow10 k)
    else if x.isZero then x
    else shrink fuel (x.div (.pow10 308)) (k - 308)

/-- The number `n * 10 ^ e`, or none if it is out of range.  The significand is rounded before the
power is applied. -/
def scaled (n : Nat) (e : Int) : Option Binary64 :=
  let x := Binary64.ofNat n
  if e < 0 then some (shrink 4 x e.natAbs)
  else if 308 < e then if x.isZero then some x else none
  else
    let y := x.mul (.pow10 e.natAbs)
    if y.isInfinite then none else some y

/-- A number with a point or an exponent. -/
def float (negative : Bool) (n : Nat) (e : Int) (s : List UInt8) :
    Except Fault (Found × List UInt8) :=
  match scaled n e with
  | none => .error ⟨.numberOutOfRange, s⟩
  | some x => .ok (.float (if negative then x.neg else x), s)

/-- The greatest exponent that is taken into account. -/
def maxExponent : Nat := 2147483647

/-- The digits of an exponent: its value, or the bytes after the digit at which it is too great. -/
def exponentDigits (n : Nat) : List UInt8 → Except (List UInt8) (Nat × List UInt8)
  | [] => .ok (n, [])
  | d :: s =>
    if isDigit d then
      if maxExponent < n * 10 + digit d then .error s else exponentDigits (n * 10 + digit d) s
    else .ok (n, d :: s)

/-- The exponent of a number, after its letter. -/
def exponent (negative : Bool) (n : Nat) (e : Int) (s : List UInt8) :
    Except Fault (Found × List UInt8) :=
  let down := headIs (· == minus) s
  let s := if down || headIs (· == plus) s then s.tail else s
  match s with
  | [] => .error ⟨.endOfValue, []⟩
  | d :: s =>
    if !isDigit d then .error ⟨.invalidNumber, s⟩
    else
      match exponentDigits (digit d) s with
      | .ok (k, s) => float negative n (if down then e - k else e + k) s
      | .error s =>
        if n ≠ 0 && !down then .error ⟨.numberOutOfRange, s⟩
        else float negative 0 0 (s.dropWhile isDigit)

/-- The part of a number after its point. -/
def fraction (negative : Bool) (n : Nat) (e : Int) (s : List UInt8) :
    Except Fault (Found × List UInt8) :=
  let digits := s.takeWhile isDigit
  let s := s.dropWhile isDigit
  if digits.isEmpty then
    .error (if s.isEmpty then ⟨.endOfValue, []⟩ else faultAt .invalidNumber s)
  else
    let (n, taken, _) := takeDigits n digits
    let e := e - taken
    match s with
    | b :: r => if isExponent b then exponent negative n e r else float negative n e s
    | [] => float negative n e s

/-- A whole number as a message shows it: negative numbers have 63 bits, and minus zero is no whole
number. -/
def whole (negative : Bool) (n : Nat) : Found :=
  if !negative then .integer n
  else if 1 ≤ n && n ≤ 9223372036854775808 then .integer (-n)
  else .float (Binary64.ofNat n).neg

/-- What follows the digits of the whole part of a number, of which `left` were not taken up. -/
def afterWhole (negative : Bool) (n left : Nat) (s : List UInt8) :
    Except Fault (Found × List UInt8) :=
  match s with
  | b :: r =>
    if b = point then fraction negative n left r
    else if isExponent b then exponent negative n left r
    else if left = 0 then .ok (whole negative n, s)
    else float negative n left s
  | [] => if left = 0 then .ok (whole negative n, s) else float negative n left s

/-- A number without its minus sign. -/
def number (negative : Bool) (s : List UInt8) : Except Fault (Found × List UInt8) :=
  match s with
  | [] => .error ⟨.endOfValue, []⟩
  | b :: r =>
    if b = zero then
      if headIs isDigit r then .error (faultAt .invalidNumber r) else afterWhole negative 0 0 r
    else if isDigit b then
      let (n, _, left) := takeDigits 0 (s.takeWhile isDigit)
      afterWhole negative n left (s.dropWhile isDigit)
    else .error ⟨.invalidNumber, r⟩

/-! ## Values of the wrong shape -/

/-- The refusal of a value found in place of what was expected. -/
def refuse (expected : String) (r : Except Fault (Found × List UInt8)) : Fault :=
  match r with
  | .ok (found, s) => ⟨.mismatch found expected, s⟩
  | .error f => f

/-- The refusal of the value at the front of the bytes. -/
def mismatch (expected : String) (s : List UInt8) : Fault :=
  match s with
  | [] => faultAt .expectedValue s
  | b :: r =>
    if b = 0x6e then refuse expected ((word nullRest r).map fun s => (.null, s))
    else if b = 0x74 then refuse expected ((word trueRest r).map fun s => (.boolean true, s))
    else if b = 0x66 then refuse expected ((word falseRest r).map fun s => (.boolean false, s))
    else if b = minus then refuse expected (number true r)
    else if isDigit b then refuse expected (number false s)
    else if b = quote then refuse expected ((string r).map fun x => (.string x.1, x.2))
    else if b = openBracket then ⟨.mismatch .sequence expected, s⟩
    else if b = openBrace then ⟨.mismatch .map expected, s⟩
    else faultAt .expectedValue s

end HclQuery.Json
