import HclQuery.Mismatch

/-!
# JSON: faults

Why a JSON text is refused, and the line and column a message gives for it.  A fault keeps the bytes
that were not read yet; its place follows from them.

Main results:

- Theorem {lit}`Position.advance_append`: a place is reached in stages.
-/

namespace HclQuery.Json

/-- Why a JSON text is refused. -/
inductive Cause where
  | endOfList
  | endOfObject
  | endOfString
  | endOfValue
  | expectedColon
  | expectedListCommaOrEnd
  | expectedObjectCommaOrEnd
  | expectedWord
  | expectedValue
  | invalidEscape
  | invalidNumber
  | numberOutOfRange
  | invalidCodePoint
  | controlCharacter
  | keyNotString
  | loneSurrogate
  | endOfEscape
  | trailingComma
  | trailingCharacters
  | tooDeep
  | mismatch (found : Found) (expected : String)
  | duplicateField (name : String)
  deriving DecidableEq, Repr

/-- The wording of a cause. -/
def Cause.message : Cause → String
  | endOfList => "EOF while parsing a list"
  | endOfObject => "EOF while parsing an object"
  | endOfString => "EOF while parsing a string"
  | endOfValue => "EOF while parsing a value"
  | expectedColon => "expected `:`"
  | expectedListCommaOrEnd => "expected `,` or `]`"
  | expectedObjectCommaOrEnd => "expected `,` or `\x7d`"
  | expectedWord => "expected ident"
  | expectedValue => "expected value"
  | invalidEscape => "invalid escape"
  | invalidNumber => "invalid number"
  | numberOutOfRange => "number out of range"
  | invalidCodePoint => "invalid unicode code point"
  | controlCharacter => "control character (\\u0000-\\u001F) found while parsing a string"
  | keyNotString => "key must be a string"
  | loneSurrogate => "lone leading surrogate in hex escape"
  | endOfEscape => "unexpected end of hex escape"
  | trailingComma => "trailing comma"
  | trailingCharacters => "trailing characters"
  | tooDeep => "recursion limit exceeded"
  | mismatch found expected => found.mismatch .compact expected
  | duplicateField name => s!"duplicate field `{name}`"

/-- A refusal, with the bytes that were not read when it arose. -/
structure Fault where
  cause : Cause
  unread : List UInt8
  deriving DecidableEq, Repr

/-- A place in a text: its line, counted from one, and the bytes of that line before it. -/
structure Position where
  line : Nat
  column : Nat
  deriving DecidableEq, Repr

namespace Position

/-- The front of a text. -/
def start : Position := ⟨1, 0⟩

/-- The place after more bytes. -/
def advance (p : Position) : List UInt8 → Position
  | [] => p
  | b :: bs => advance (if b = 0x0a then ⟨p.line + 1, 0⟩ else ⟨p.line, p.column + 1⟩) bs

/-- A place is reached in stages. -/
theorem advance_append (p : Position) (as bs : List UInt8) :
    p.advance (as ++ bs) = (p.advance as).advance bs := by
  induction as generalizing p with
  | nil => rfl
  | cons a as ih => exact ih _

end Position

/-- The place of a fault in an input. -/
def Fault.position (input : List UInt8) (f : Fault) : Position :=
  Position.start.advance (input.take (input.length - f.unread.length))

/-- The wording of a fault in an input. -/
def Fault.message (input : List UInt8) (f : Fault) : String :=
  let p := f.position input
  s!"{f.cause.message} at line {p.line} column {p.column}"

end HclQuery.Json
