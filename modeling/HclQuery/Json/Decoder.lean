import HclQuery.Json.Skip

/-!
# JSON: decoding typed values

Readers for lists, maps and records, out of readers for their parts.  A record may be given as an
object, in which unknown members are skipped, or as the list of its fields.  Lists and objects are
entered at most as often as a limit allows.

Main definitions:

- {lit}`list`: a list of values of one type.
- {lit}`record`: a record given as an object or as a list.
- {lit}`orDefault`: a value, or null for the default one.
- {lit}`whole?`: a value that takes up the whole input.
-/

namespace HclQuery.Json

open Byte

/-! ## Lists -/

/-- Whether another element follows in a list, and the bytes from it, or from the closing bracket,
on. -/
def nextElement (first : Bool) (s : List UInt8) : Except Fault (Bool × List UInt8) :=
  match skipSpace s with
  | [] => .error ⟨.endOfList, []⟩
  | b :: r =>
    if b = closeBracket then .ok (false, b :: r)
    else if first then .ok (true, b :: r)
    else if b = comma then
      match skipSpace r with
      | [] => .error ⟨.endOfValue, []⟩
      | b :: r => if b = closeBracket then .error ⟨.trailingComma, r⟩ else .ok (true, b :: r)
    else .error ⟨.expectedListCommaOrEnd, r⟩

/-- The bytes after the closing bracket of a list. -/
def endList (s : List UInt8) : Except Fault (List UInt8) :=
  match skipSpace s with
  | [] => .error ⟨.endOfList, []⟩
  | b :: r =>
    if b = closeBracket then .ok r
    else if b = comma then
      let r := skipSpace r
      if headIs (· == closeBracket) r then .error (faultAt .trailingComma r)
      else .error (faultAt .trailingCharacters r)
    else .error ⟨.trailingCharacters, r⟩

/-- The elements of a list up to its closing bracket, at most `fuel` of them. -/
def elements {α : Type} (element : Reader α) : Nat → Bool → Reader (List α)
  | 0, _, s => .error (faultAt .endOfList s)
  | fuel + 1, first, s =>
    match nextElement first s with
    | .error f => .error f
    | .ok (false, s) => .ok ([], s)
    | .ok (true, s) =>
      match element s with
      | .error f => .error f
      | .ok (x, s) =>
        match elements element fuel false s with
        | .error f => .error f
        | .ok (xs, s) => .ok (x :: xs, s)

/-- A field of a record given as a list; one that is not given has the default value. -/
def positional {α : Type} (first : Bool) (default : α) (field : Reader α) : Reader α := fun s =>
  match nextElement first s with
  | .error f => .error f
  | .ok (false, s) => .ok (default, s)
  | .ok (true, s) => field s

/-! ## Objects -/

/-- Whether another member follows in an object, and the bytes from its key, or from the closing
brace, on. -/
def nextMember (first : Bool) (s : List UInt8) : Except Fault (Bool × List UInt8) :=
  match skipSpace s with
  | [] => .error ⟨.endOfObject, []⟩
  | b :: r =>
    if b = closeBrace then .ok (false, b :: r)
    else if first then
      if b = quote then .ok (true, r) else .error ⟨.keyNotString, r⟩
    else if b = comma then
      match skipSpace r with
      | [] => .error ⟨.endOfValue, []⟩
      | b :: r =>
        if b = quote then .ok (true, r)
        else if b = closeBrace then .error ⟨.trailingComma, r⟩
        else .error ⟨.keyNotString, r⟩
    else .error ⟨.expectedObjectCommaOrEnd, r⟩

/-- The bytes after the closing brace of an object. -/
def endObject (s : List UInt8) : Except Fault (List UInt8) :=
  match skipSpace s with
  | [] => .error ⟨.endOfObject, []⟩
  | b :: r =>
    if b = closeBrace then .ok r
    else if b = comma then .error ⟨.trailingComma, r⟩
    else .error ⟨.trailingCharacters, r⟩

/-- The bytes after the colon that follows a key. -/
def afterColon (s : List UInt8) : Except Fault (List UInt8) :=
  match skipSpace s with
  | [] => .error ⟨.endOfObject, []⟩
  | b :: r => if b = colon then .ok r else .error ⟨.expectedColon, r⟩

/-- The value of a member, after its key. -/
def memberValue {α : Type} (value : Reader α) : Reader α := fun s =>
  match afterColon s with
  | .error f => .error f
  | .ok s => value s

/-- The members of an object up to its closing brace, at most `fuel` of them: each key is handed to
`member` with what was read before. -/
def members {σ : Type} (member : σ → String → Reader σ) : Nat → Bool → σ → Reader σ
  | 0, _, _, s => .error (faultAt .endOfObject s)
  | fuel + 1, first, st, s =>
    match nextMember first s with
    | .error f => .error f
    | .ok (false, s) => .ok (st, s)
    | .ok (true, s) =>
      match string s with
      | .error f => .error f
      | .ok (key, s) =>
        match member st key s with
        | .error f => .error f
        | .ok (st, s) => members member fuel false st s

/-- The refusal of a field given twice, after its key.  Its place is past the blanks that follow,
and past the end of the object if that comes next. -/
def duplicate (name : String) (s : List UInt8) : Fault :=
  let s := skipSpace s
  ⟨.duplicateField name, if headIs (· == closeBrace) s then s.tail else s⟩

/-- A field of a record: it is read if it was not given before. -/
def field {α σ : Type} (name : String) (before : Option α) (value : Reader α) (store : α → σ) :
    Reader σ := fun s =>
  match before with
  | some _ => .error (duplicate name s)
  | none =>
    match memberValue value s with
    | .error f => .error f
    | .ok (x, s) => .ok (store x, s)

/-- A member that is not asked for. -/
def ignored {σ : Type} (st : σ) : Reader σ := fun s =>
  match afterColon s with
  | .error f => .error f
  | .ok s =>
    match skip s with
    | .error f => .error f
    | .ok s => .ok (st, s)

/-! ## Typed values -/

/-- A bracket that may not be entered, or a value of the wrong shape. -/
def refuseBracket {α : Type} (expected : String) (isOpen : UInt8 → Bool) : Reader α := fun s =>
  match skipSpace s with
  | [] => .error ⟨.endOfValue, []⟩
  | b :: r =>
    if isOpen b then .error ⟨.tooDeep, r⟩ else .error (mismatch expected (b :: r))

/-- A string. -/
def stringValue : Reader String := fun s =>
  match skipSpace s with
  | [] => .error ⟨.endOfValue, []⟩
  | b :: r => if b = quote then string r else .error (mismatch "a string" (b :: r))

/-- What stands between brackets, with the closing bracket after it. -/
def bracketed {α : Type} (inner : Reader α) (finish : List UInt8 → Except Fault (List UInt8)) :
    Reader α := fun s =>
  match inner s with
  | .error f => .error f
  | .ok (x, s) =>
    match finish s with
    | .error f => .error f
    | .ok s => .ok (x, s)

/-- A list of values of one type. -/
def list {α : Type} (element : Reader α) : Reader (List α) := fun s =>
  match skipSpace s with
  | [] => .error ⟨.endOfValue, []⟩
  | b :: r =>
    if b = openBracket then bracketed (elements element (r.length + 1) true) endList r
    else .error (mismatch "a sequence" (b :: r))

/-- An object whose members are collected one by one. -/
def map {σ : Type} (member : σ → String → Reader σ) (start : σ) : Reader σ := fun s =>
  match skipSpace s with
  | [] => .error ⟨.endOfValue, []⟩
  | b :: r =>
    if b = openBrace then bracketed (members member (r.length + 1) true start) endObject r
    else .error (mismatch "a map" (b :: r))

/-- A record given as the list of its fields or as an object. -/
def record {α σ : Type} (expected : String) (fields : Reader α) (member : σ → String → Reader σ)
    (start : σ) (build : σ → α) : Reader α := fun s =>
  match skipSpace s with
  | [] => .error ⟨.endOfValue, []⟩
  | b :: r =>
    if b = openBracket then bracketed fields endList r
    else if b = openBrace then
      match bracketed (members member (r.length + 1) true start) endObject r with
      | .error f => .error f
      | .ok (st, s) => .ok (build st, s)
    else .error (mismatch expected (b :: r))

/-- A value, or null for the default one. -/
def orDefault {α : Type} (default : α) (value : Reader α) : Reader α := fun s =>
  match skipSpace s with
  | [] => value []
  | b :: r =>
    if b = 0x6e then
      match word nullRest r with
      | .error f => .error f
      | .ok r => .ok (default, r)
    else value (b :: r)

/-- A value that takes up the whole input. -/
def whole? {α : Type} (value : Reader α) (s : List UInt8) : Except Fault α :=
  match value s with
  | .error f => .error f
  | .ok (x, s) =>
    match skipSpace s with
    | [] => .ok x
    | _ :: r => .error ⟨.trailingCharacters, r⟩

end HclQuery.Json
