import HclQuery.Toml.Value

/-!
# TOML: values and statements

Values are read from tokens.  Arrays and braces hold values, at most eighty levels deep.  A document
is a sequence of statements, one on a line: a header, or a value under a key.

Main definitions:

- {lit}`value?`: the value at the front of a row of tokens.
- {lit}`Statement`: a line of a document.
- {lit}`statements?`: the lines of a document.
-/

namespace HclQuery.Toml

/-- A reader takes something off the front of a row of tokens, or refuses them. -/
abbrev Reader (α : Type) := List Token → Option (α × List Token)

/-! ## Blanks -/

/-- The tokens after the blanks at their front. -/
def skipBlank : List Token → List Token
  | [] => []
  | t :: ts =>
    match t.kind with
    | .blank _ => skipBlank ts
    | _ => t :: ts

/-- The tokens after the blanks and newlines at their front. -/
def skipLines : List Token → List Token
  | [] => []
  | t :: ts =>
    match t.kind with
    | .blank _ => skipLines ts
    | .newline => skipLines ts
    | _ => t :: ts

/-- A token of one kind, after blanks. -/
def mark (k : Kind) : Reader Span := fun ts =>
  match skipBlank ts with
  | [] => none
  | t :: ts => if t.kind = k then some (t.span, ts) else none

/-! ## Keys -/

/-- The characters of a key without quotes. -/
def isBareKeyChar (c : Char) : Bool :=
  c.isAlphanum || c == '_' || c == '-'

/-- The key that a token stands for. -/
def Token.key? (t : Token) : Option Key :=
  match t.kind with
  | .word w => if w.all isBareKeyChar then some ⟨String.ofList w, t.span⟩ else none
  | .quoted q => if q.multiline then none else some ⟨String.ofList q.text, t.span⟩
  | _ => none

/-- A key, after blanks. -/
def key? : Reader Key := fun ts =>
  match skipBlank ts with
  | [] => none
  | t :: ts => t.key?.map fun k => (k, ts)

/-- The parts of a dotted key after its first one, at most `fuel` of them. -/
def moreKeys : Nat → Reader (List Key)
  | 0, ts => some ([], ts)
  | fuel + 1, ts =>
    match mark .dot ts with
    | none => some ([], ts)
    | some (_, ts) => do
      let (k, ts) ← key? ts
      let (ks, ts) ← moreKeys fuel ts
      pure (k :: ks, ts)

/-- How deep values may be nested, and how many parts a key may have. -/
def maxDepth : Nat := 80

/-- A dotted key: its front and its last part. -/
def keyPath? : Reader (List Key × Key) := fun ts => do
  let (k, ts) ← key? ts
  let (ks, ts) ← moreKeys (maxDepth - 1) ts
  pure (((k :: ks).dropLast, (k :: ks).getLast (by simp)), ts)

/-! ## Scalars -/

/-- The part of a scalar that a token stands for. -/
def Token.wordText? (t : Token) : Option (List Char) :=
  match t.kind with
  | .word w => some w
  | .dot => some ['.']
  | _ => none

/-- The text of the words and dots at the front of a row of tokens, where it ends, and the rest. -/
def wordRun (text : List Char) (stop : Nat) : List Token → List Char × Nat × List Token
  | [] => (text, stop, [])
  | t :: ts =>
    match t.wordText? with
    | some w => wordRun (text ++ w) t.span.stop ts
    | none => (text, stop, t :: ts)

/-- The tokens of the time that follows a date after one space. -/
def timeAfter? (text : List Char) : List Token → Option (List Token)
  | ⟨.blank [' '], _⟩ :: ⟨.word (c :: w), span⟩ :: ts =>
    if isDate text && isDigit c then some (⟨.word (c :: w), span⟩ :: ts) else none
  | _ => none

/-- A scalar without quotes. -/
def word? : Reader Value
  | [] => none
  | t :: ts =>
    let (text, stop, rest) := wordRun [] t.span.start (t :: ts)
    let (text, stop, rest) :=
      match timeAfter? text rest with
      | some rest => wordRun (text ++ [' ']) stop rest
      | none => (text, stop, rest)
    (Scalar.ofWord? text).map fun s => (.scalar ⟨t.span.start, stop⟩ s, rest)

/-! ## Values -/

/-- The items between commas up to a closing token, at most `fuel` of them; a comma may stand after
the last one. -/
def separated {α : Type} (item : Reader α) (close : Kind) : Nat → Reader (List α × Span)
  | 0, _ => none
  | fuel + 1, ts =>
    match mark close (skipLines ts) with
    | some (span, ts) => some (([], span), ts)
    | none => do
      let (x, ts) ← item (skipLines ts)
      match mark .comma (skipLines ts) with
      | some (_, ts) =>
        let ((xs, span), ts) ← separated item close fuel ts
        pure ((x :: xs, span), ts)
      | none =>
        let (span, ts) ← mark close (skipLines ts)
        pure (([x], span), ts)

/-- A dotted key with its value. -/
def pair? (value : Reader Value) : Reader ((List Key × Key) × Value) := fun ts => do
  let (path, ts) ← keyPath? ts
  let (_, ts) ← mark .equals ts
  let (v, ts) ← value (skipBlank ts)
  pure ((path, v), ts)

/-- The table in braces with its pairs. -/
def inlineTable? (span : Span) (pairs : List ((List Key × Key) × Value)) : Option Value :=
  pairs.foldlM (fun table p => table.insert p.1.1 p.1.2 p.2) (.table .braces (some span) [])

/-- The value at the front of a row of tokens, nested at most so deep. -/
def value? : Nat → Reader Value
  | _, [] => none
  | depth, t :: ts =>
    match t.kind, depth with
    | .quoted q, _ => some (.scalar t.span (.string (String.ofList q.text)), ts)
    | .openBracket, depth + 1 => do
      let ((vs, close), ts) ← separated (value? depth) .closeBracket (ts.length + 1) ts
      pure (.array ⟨t.span.start, close.stop⟩ vs, ts)
    | .openBrace, depth + 1 => do
      let ((ps, close), ts) ← separated (pair? (value? depth)) .closeBrace (ts.length + 1) ts
      let v ← inlineTable? ⟨t.span.start, close.stop⟩ ps
      pure (v, ts)
    | .word _, _ => word? (t :: ts)
    | .dot, _ => word? (t :: ts)
    | _, _ => none

/-! ## Statements -/

/-- A line of a document. -/
inductive Statement where
  /-- A value under a dotted key. -/
  | pair (path : List Key) (key : Key) (value : Value)
  /-- The header of a table. -/
  | header (path : List Key) (key : Key) (span : Span)
  /-- The header of one more table in a row. -/
  | element (path : List Key) (key : Key) (span : Span)
  deriving Repr

/-- The statement at the front of a row of tokens, which does not begin with a blank or a
newline. -/
def statement? : Reader Statement
  | ⟨.openBracket, first⟩ :: ⟨.openBracket, _⟩ :: ts => do
    let ((path, key), ts) ← keyPath? ts
    match skipBlank ts with
    | ⟨.closeBracket, _⟩ :: ⟨.closeBracket, last⟩ :: ts =>
      pure (.element path key ⟨first.start, last.stop⟩, ts)
    | _ => none
  | ⟨.openBracket, first⟩ :: ts => do
    let ((path, key), ts) ← keyPath? ts
    let (last, ts) ← mark .closeBracket ts
    pure (.header path key ⟨first.start, last.stop⟩, ts)
  | ts => do
    let (((path, key), v), ts) ← pair? (value? maxDepth) ts
    pure (.pair path key v, ts)

/-- The tokens after the end of a line. -/
def endLine? (ts : List Token) : Option (List Token) :=
  match skipBlank ts with
  | [] => some []
  | t :: ts => if t.kind = .newline then some ts else none

/-- The statements of a document, at most `fuel` of them. -/
def statementsFrom : Nat → List Token → Option (List Statement)
  | 0, _ => none
  | fuel + 1, ts =>
    match skipLines ts with
    | [] => some []
    | t :: ts => do
      let (s, ts) ← statement? (t :: ts)
      let ts ← endLine? ts
      let ss ← statementsFrom fuel ts
      pure (s :: ss)

/-- The statements of a document. -/
def statements? (ts : List Token) : Option (List Statement) :=
  statementsFrom (ts.length + 1) ts

end HclQuery.Toml
