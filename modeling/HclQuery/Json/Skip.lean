import HclQuery.Json.Reader

/-!
# JSON: skipping values

A value that nobody asked for is checked and dropped, however deeply it is nested: the open brackets
are kept on a stack.  Numbers may be of any size, and strings may hold any bytes.

Main definitions:

- {lit}`skipString`: the bytes after a string.
- {lit}`skipNumber`: the bytes after a number.
- {lit}`skip`: the bytes after a value.
-/

namespace HclQuery.Json

open Byte

/-- The bytes after an escape, of which the backslash has been read. -/
def skipEscape (s : List UInt8) : Except Fault (List UInt8) :=
  match s with
  | [] => .error ⟨.endOfString, []⟩
  | b :: s =>
    if (escapeLetter? b).isSome then .ok s
    else if b = 0x75 then (hexEscape s).map (·.2)
    else .error ⟨.invalidEscape, s⟩

/-- An escape takes at least one byte. -/
theorem skipEscape_length {s r : List UInt8} (h : skipEscape s = .ok r) : r.length < s.length := by
  unfold skipEscape at h
  split at h
  · simp at h
  · next b s =>
    split at h
    · obtain rfl : s = r := by simpa using h
      simp
    · split at h
      · cases hx : hexEscape s with
        | error f => rw [hx] at h; simp [Except.map] at h
        | ok x =>
          have := hexEscape_length (n := x.1) (r := x.2) hx
          rw [hx] at h
          obtain rfl : x.2 = r := by simpa [Except.map] using h
          simp only [List.length_cons]
          omega
      · simp at h

/-- The bytes after a string, of which the opening quote has been read. -/
def skipString (s : List UInt8) : Except Fault (List UInt8) :=
  match s with
  | [] => .error ⟨.endOfString, []⟩
  | b :: r =>
    if b = quote then .ok r
    else if b = backslash then
      match _h : skipEscape r with
      | .error f => .error f
      | .ok r => skipString r
    else if b < 0x20 then .error ⟨.controlCharacter, s⟩
    else skipString r
termination_by s.length
decreasing_by
  · have := skipEscape_length _h
    simp only [List.length_cons]
    omega
  · simp

/-- The bytes after an exponent, of which the letter has been read. -/
def skipExponent (s : List UInt8) : Except Fault (List UInt8) :=
  let s := if headIs (fun b => b == plus || b == minus) s then s.tail else s
  if headIs isDigit s then .ok (s.dropWhile isDigit) else .error ⟨.invalidNumber, s.tail⟩

/-- The bytes after the exponent that a number may go on with. -/
def skipOptionalExponent (s : List UInt8) : Except Fault (List UInt8) :=
  if headIs isExponent s then skipExponent s.tail else .ok s

/-- The bytes after the rest of a number, of which the whole part has been read. -/
def skipFraction (s : List UInt8) : Except Fault (List UInt8) :=
  if headIs (· == point) s then
    if headIs isDigit s.tail then skipOptionalExponent (s.tail.dropWhile isDigit)
    else .error (faultAt .invalidNumber s.tail)
  else skipOptionalExponent s

/-- The bytes after a number, without its minus sign. -/
def skipNumber (s : List UInt8) : Except Fault (List UInt8) :=
  match s with
  | [] => .error ⟨.invalidNumber, []⟩
  | b :: r =>
    if b = zero then
      if headIs isDigit r then .error (faultAt .invalidNumber r) else skipFraction r
    else if isDigit b then skipFraction (r.dropWhile isDigit)
    else .error ⟨.invalidNumber, r⟩

/-- An open bracket around a skipped value. -/
inductive Bracket where
  | list
  | object
  deriving DecidableEq, Repr

namespace Bracket

/-- The byte that closes a bracket. -/
def close : Bracket → UInt8
  | list => closeBracket
  | object => closeBrace

/-- The fault of an input that ends inside a bracket. -/
def unclosed : Bracket → Cause
  | list => .endOfList
  | object => .endOfObject

/-- The fault of a value inside a bracket that is not followed by a comma. -/
def unseparated : Bracket → Cause
  | list => .expectedListCommaOrEnd
  | object => .expectedObjectCommaOrEnd

end Bracket

/-- What has to come next while values are skipped. -/
inductive Expecting where
  /-- A value. -/
  | value
  /-- The first member of the innermost bracket, or its end. -/
  | first
  /-- A comma, or the end of the innermost bracket. -/
  | more
  deriving DecidableEq, Repr

/-- The bytes from the value of a member on: past its key and colon if the bracket is an object. -/
def skipKey (b : Bracket) (s : List UInt8) : Except Fault (List UInt8) :=
  match b with
  | .list => .ok s
  | .object =>
    match skipSpace s with
    | [] => .error ⟨.endOfObject, []⟩
    | c :: r =>
      if c ≠ quote then .error ⟨.keyNotString, r⟩
      else
        match skipString r with
        | .error f => .error f
        | .ok r =>
          match skipSpace r with
          | [] => .error ⟨.endOfObject, []⟩
          | c :: r => if c = colon then .ok r else .error ⟨.expectedColon, r⟩

/-- The bytes after a value that is no list or object, of which the first byte is given. -/
def skipScalar (b : UInt8) (r : List UInt8) : Except Fault (List UInt8) :=
  if b = 0x6e then word nullRest r
  else if b = 0x74 then word trueRest r
  else if b = 0x66 then word falseRest r
  else if b = minus then skipNumber r
  else if isDigit b then skipNumber (b :: r)
  else if b = quote then skipString r
  else .error ⟨.expectedValue, r⟩

/-- The bytes after everything that is open has been closed, in at most `fuel` steps. -/
def skipFrom : Nat → Expecting → List Bracket → List UInt8 → Except Fault (List UInt8)
  | 0, _, _, s => .error (faultAt .endOfValue s)
  | fuel + 1, .value, open_, s =>
    match skipSpace s with
    | [] => .error ⟨.endOfValue, []⟩
    | b :: r =>
      if b = openBracket then skipFrom fuel .first (.list :: open_) r
      else if b = openBrace then skipFrom fuel .first (.object :: open_) r
      else
        match skipScalar b r with
        | .error f => .error f
        | .ok r => if open_.isEmpty then .ok r else skipFrom fuel .more open_ r
  | _, _, [], s => .ok s
  | fuel + 1, expecting, bracket :: outer, s =>
    match skipSpace s with
    | [] => .error ⟨bracket.unclosed, []⟩
    | b :: r =>
      if b = bracket.close then
        if outer.isEmpty then .ok r else skipFrom fuel .more outer r
      else if expecting = .first then
        match skipKey bracket (b :: r) with
        | .error f => .error f
        | .ok r => skipFrom fuel .value (bracket :: outer) r
      else if b = comma then
        match skipKey bracket r with
        | .error f => .error f
        | .ok r => skipFrom fuel .value (bracket :: outer) r
      else .error ⟨bracket.unseparated, r⟩

/-- The bytes after a value. -/
def skip (s : List UInt8) : Except Fault (List UInt8) :=
  skipFrom (2 * s.length + 2) .value [] s

end HclQuery.Json
