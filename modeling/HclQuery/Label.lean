import HclQuery.Text.CharClass
import HclQuery.Text.Hex

/-!
# Block labels: quoting and unquoting

A label is a plain value.  It is written as a quoted literal, in which the characters with a meaning
of their own are escaped and the `$` or `%` of a template marker is doubled, and it is read back
from a literal by the reverse rules.

Main definitions:

- {lit}`Label.quote`: the literal of a label.
- {lit}`Label.unquote`: the label of a literal, or of a bare word.
-/

namespace HclQuery.Label

open Text (isControl hexRun? scalar?)

/-- A hexadecimal digit in lower case. -/
def hexDigit (n : Nat) : Char :=
  Nat.digitChar (n % 16)

/-- A code point below 2^16 as four hexadecimal digits. -/
def fourDigits (n : Nat) : List Char :=
  [hexDigit (n / 4096), hexDigit (n / 256), hexDigit (n / 16), hexDigit n]

/-- The characters that begin a template marker before a brace. -/
def isMarker (c : Char) : Bool :=
  c == '$' || c == '%'

/-- One character of a literal, given the character after it. -/
def escapeChar (c : Char) (next : Option Char) : List Char :=
  if c = '"' then ['\\', '"']
  else if c = '\\' then ['\\', '\\']
  else if c = '\n' then ['\\', 'n']
  else if c = '\r' then ['\\', 'r']
  else if c = '\t' then ['\\', 't']
  else if isMarker c && next == some '{' then [c, c]
  else if isControl c then ['\\', 'u'] ++ fourDigits c.toNat
  else [c]

/-- The inside of the literal of a label. -/
def escape : List Char → List Char
  | [] => []
  | c :: rest => escapeChar c rest.head? ++ escape rest

/-- The literal of a label. -/
def quote (label : String) : String :=
  String.ofList ('"' :: escape label.toList ++ ['"'])

/-- The number that hexadecimal digits denote; one plus sign may stand before them. -/
def hexNumber? : List Char → Option Nat
  | [] => none
  | ['+'] => none
  | '+' :: cs => hexRun? 0 cs
  | cs => hexRun? 0 cs

/-- The character that the digits of a code point escape denote, which takes `width` of them. -/
def codePoint? (width : Nat) (digits : List Char) : Option Char :=
  if digits.length = width then (hexNumber? digits).bind scalar? else none

/-- How many characters after its marker a code point escape takes. -/
def escapeWidth (marker : Char) : Nat :=
  if marker = 'u' then 4 else 8

/-- A code point escape with the characters taken by it: its character, or all of it verbatim. -/
def unescapeCode (marker : Char) (digits : List Char) : List Char :=
  match codePoint? (escapeWidth marker) digits with
  | some c => [c]
  | none => '\\' :: marker :: digits

/-- What a backslash and the character after it stand for; unknown escapes are kept. -/
def unescapeLetter (c : Char) : List Char :=
  if c = 'n' then ['\n']
  else if c = 'r' then ['\r']
  else if c = 't' then ['\t']
  else if c = '"' then ['"']
  else if c = '\\' then ['\\']
  else ['\\', c]

/-- A marker is dropped before the same marker and a brace. -/
def isDoubled (c : Char) (rest : List Char) : Bool :=
  isMarker c && rest.take 2 == [c, '{']

/-- The value of the inside of a literal. -/
def unescape : List Char → List Char
  | [] => []
  | c :: rest =>
    if c = '\\' then
      match rest with
      | [] => ['\\']
      | d :: rest =>
        if d = 'u' ∨ d = 'U' then
          unescapeCode d (rest.take (escapeWidth d)) ++ unescape (rest.drop (escapeWidth d))
        else unescapeLetter d ++ unescape rest
    else if isDoubled c rest then c :: unescape (rest.drop 1)
    else c :: unescape rest
termination_by t => t.length
decreasing_by all_goals simp_all <;> omega

/-- The text between the quotes of a literal; a text without both of them is its own inside. -/
def inside (literal : List Char) : List Char :=
  match literal with
  | '"' :: rest => if rest.getLast? = some '"' then rest.dropLast else literal
  | _ => literal

/-- The label of a literal, or of a bare word. -/
def unquote (literal : String) : String :=
  String.ofList (unescape (inside literal.toList))

end HclQuery.Label
