import HclQuery.Text.Blank

/-!
# JSON: writing

Texts of strings, lists and objects, on one line or with one member to a line.

Main results:

- Theorem {lit}`Spacing.inner_compact`: what stands inside a one-line text is on that line too.
-/

namespace HclQuery.Json

/-- Where the members of a list or object stand. -/
inductive Spacing where
  /-- All on one line. -/
  | compact
  /-- Each on a line of its own, inside so many levels. -/
  | pretty (level : Nat)
  deriving DecidableEq, Repr

namespace Spacing

/-- One level further inside. -/
def inner : Spacing → Spacing
  | compact => compact
  | pretty n => pretty (n + 1)

/-- What stands in front of a member, or of a closing bracket. -/
def lineBreak : Spacing → List Char
  | compact => []
  | pretty n => '\n' :: List.replicate (2 * n) ' '

/-- What stands between a key and its value. -/
def colon : Spacing → List Char
  | compact => [':']
  | pretty _ => [':', ' ']

@[simp]
theorem inner_compact : inner compact = compact := rfl

end Spacing

/-- A code point below U+0020 as a `\u` escape. -/
def controlEscape (n : Nat) : List Char :=
  ['\\', 'u', '0', '0', Nat.digitChar (n / 16), Nat.digitChar (n % 16)]

/-- One character of a string. -/
def escapeChar (c : Char) : List Char :=
  if c = '"' then ['\\', '"']
  else if c = '\\' then ['\\', '\\']
  else if c = '\x08' then ['\\', 'b']
  else if c = '\x0c' then ['\\', 'f']
  else if c = '\n' then ['\\', 'n']
  else if c = '\r' then ['\\', 'r']
  else if c = '\t' then ['\\', 't']
  else if c.toNat < 0x20 then controlEscape c.toNat
  else [c]

/-- A string in quotes. -/
def writeString (s : String) : List Char :=
  '"' :: s.toList.flatMap escapeChar ++ ['"']

/-- Texts after the first one of a list, each after a comma. -/
def writeMore (spacing : Spacing) (items : List (List Char)) : List Char :=
  items.flatMap fun t => ',' :: (spacing.lineBreak ++ t)

/-- Texts between brackets. -/
def writeBracketed (spacing : Spacing) (opening closing : Char) : List (List Char) → List Char
  | [] => [opening, closing]
  | t :: ts =>
    opening :: (spacing.inner.lineBreak ++ t ++ writeMore spacing.inner ts ++ spacing.lineBreak ++
      [closing])

/-- A list of texts. -/
def writeList (spacing : Spacing) (items : List (List Char)) : List Char :=
  writeBracketed spacing '[' ']' items

/-- A member of an object. -/
def writeMember (spacing : Spacing) (key : String) (value : List Char) : List Char :=
  writeString key ++ spacing.colon ++ value

/-- An object of keys and texts. -/
def writeObject (spacing : Spacing) (items : List (String × List Char)) : List Char :=
  writeBracketed spacing '{' '}' (items.map fun m => writeMember spacing m.1 m.2)

end HclQuery.Json
