import HclQuery.Grammar.Excerpt
import HclQuery.Grammar.Source

/-!
# Grammar: where a text is at fault

A text that cannot be read is either at its end, and then a token is missing there, or it goes on
with a token that has no place.

Main definitions:

- {lit}`Location`: a place of a text with what is wrong at it.
- {lit}`locate`: the location of a place where a text cannot go on.
-/

namespace HclQuery.Grammar

open Text

/-- What is wrong at a place. -/
inductive LocationKind where
  /-- Text that has no place here. -/
  | unexpected
  /-- A token that would have to stand here. -/
  | missing (token : String)
  deriving DecidableEq, Repr

/-- A span of bytes with what is wrong at it; line and column are counted from one. -/
structure Location where
  kind : LocationKind
  byteStart : Nat
  byteEnd : Nat
  line : Nat
  column : Nat
  context : String
  deriving DecidableEq, Repr

/-- The wording of a location. -/
def Location.message (l : Location) : String :=
  let place := s!"line {l.line}, column {l.column}: "
  let fault :=
    match l.kind with
    | .unexpected => "unexpected input"
    | .missing token => s!"missing `{token}`"
  place ++ fault ++ if l.context.isEmpty then "" else s!" near `{l.context}`"

/-- The token that closes the innermost open thing after an expression. -/
def Frame.closer : Frame → Option String
  | .paren | .arguments => some ")"
  | .index | .tuple | .forTuple _ => some "]"
  | .key | .value | .forObject _ => some "\x7d"
  | .quoted => some "quoted_template_end"
  | .heredoc _ => some "heredoc_identifier"
  | .interpolation => some "template_interpolation_end"
  | .forClause | .ifClause | .elseClause | .endifClause | .endforClause =>
    some "template_directive_end"
  | _ => none

/-- The token missing where an expression breaks off. -/
def State.missing (s : State) : String :=
  match s.mode with
  | .operand | .dot | .binder | .secondBinder => "identifier"
  | _ => (s.stack.findSome? Frame.closer).getD "identifier"

/-- The token missing at the end of a text; none if the last word of it is one too many. -/
def Place.missing : Place → Option String
  | .item _ => some "\x7d"
  | .header _ => none
  | .label => some "quoted_template_end"
  | .expression s => some s.missing
  | .afterObject => none

/-- The text after the first token of a text. -/
def afterToken (t : List Char) : List Char :=
  match t with
  | [] => []
  | c :: u =>
    match identifier? t with
    | some (_, r) => r
    | none =>
      if c = '"' then (literal? u).getD u
      else
        match numeral? t with
        | some r => r
        | none =>
          match spellings.find? fun s => s.1.isPrefixOf t with
          | some s => t.drop s.1.length
          | none => u

/-- The last word of a text, and the text in front of it. -/
def lastWord (t : List Char) : List Char × List Char :=
  let r := t.reverse.dropWhile fun c => !isNamePart c
  ((r.takeWhile isNamePart).reverse, (r.dropWhile isNamePart).reverse)

/-- The line and column after a text, counted from one; columns count bytes. -/
def lineColumn (front : List Char) : Nat × Nat :=
  (front.count '\n' + 1, byteLength (front.reverse.takeWhile (· != '\n')) + 1)

/-- The location of a span that begins after `front` and takes the bytes of `span`. -/
def Location.of (t : List Char) (kind : LocationKind) (front span : List Char) : Location :=
  let first := byteLength front
  let last := first + byteLength span
  let (line, column) := lineColumn front
  let context := surroundings t (Nat.le_add_right first (byteLength span))
  ⟨kind, first, last, line, column, String.ofList context⟩

/-- The text that matters at a place: what is left without the blanks in front of it. -/
def Place.rest (p : Place) (unread : List Char) : List Char :=
  match p with
  | .expression s =>
    if s.mode = .parts then unread.dropWhile isSpace else skipTrivia unread
  | _ => skipTrivia unread

/-- The location of a place where a text cannot go on. -/
def locate (t : List Char) (s : Stuck) : Location :=
  match s.place.rest s.unread with
  | [] =>
    match s.place.missing with
    | some token => .of t (.missing token) t []
    | none =>
      let (word, front) := lastWord t
      .of t .unexpected front word
  | rest => .of t .unexpected (consumed t rest) (consumed rest (afterToken rest))

end HclQuery.Grammar
