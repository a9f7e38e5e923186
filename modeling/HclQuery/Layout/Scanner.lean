import HclQuery.Text.Blank
import HclQuery.Text.CharClass

/-!
# Layout: the line scanner

Re-indenting a value needs to know, at the start of each of its lines, which brackets are open and
whether the line stands inside a string, a block comment or a heredoc.  The scanner reads a value
line by line and keeps just that.

Main results:

- Theorem {lit}`Scanner.run_nil`: an empty line changes nothing.
- Theorem {lit}`Scanner.scan_of_code`: outside heredocs a line is read character by character.
-/

namespace HclQuery.Layout

open Text

/-- What is open around a place in a value. -/
inductive Frame where
  /-- A brace, bracket or parenthesis of expression code. -/
  | bracket
  /-- A quoted string. -/
  | quoted
  /-- A template sequence inside a quoted string. -/
  | template
  deriving DecidableEq, Repr

/-- The kind of text that a line begins in. -/
inductive Region where
  /-- Expression code, or a string in it. -/
  | code
  /-- A block comment. -/
  | comment
  /-- A heredoc that ends with the line of this marker. -/
  | heredoc (marker : List Char)
  deriving DecidableEq, Repr

/-- What the scanner knows between two lines: the open frames, innermost first, and the region. -/
structure Scanner where
  stack : List Frame
  region : Region
  deriving DecidableEq, Repr

/-- What follows after one character. -/
inductive Move where
  /-- Go on with the next character. -/
  | next (s : Scanner)
  /-- The next character belongs to this one: go on after it. -/
  | skip (s : Scanner)
  /-- The rest of the line has no effect. -/
  | stop (s : Scanner)

/-- An opening brace, bracket or parenthesis. -/
def isOpener (c : Char) : Bool :=
  c == '{' || c == '[' || c == '('

/-- A closing brace, bracket or parenthesis. -/
def isCloser (c : Char) : Bool :=
  c == '}' || c == ']' || c == ')'

/-- The marker named after the `<<` of a heredoc: letters, digits and underscores after any number
of dashes. -/
def heredocMarker (after : List Char) : List Char :=
  (after.dropWhile (· == '-')).takeWhile fun c => isAlphanumeric c || c == '_'

namespace Scanner

/-- The scanner at the front of a value. -/
def initial : Scanner := ⟨[], .code⟩

/-- The number of open brackets. -/
def depth (s : Scanner) : Nat :=
  s.stack.count .bracket

/-- Lines that begin in a heredoc or in a block comment are kept as they are. -/
def verbatim (s : Scanner) : Bool :=
  match s.region with
  | .code => false
  | _ => true

/-- The innermost open frame is a quoted string. -/
def inQuoted (s : Scanner) : Bool :=
  s.stack.head? == some .quoted

/-- The scanner with a frame opened. -/
def push (s : Scanner) (f : Frame) : Scanner :=
  { s with stack := f :: s.stack }

/-- The scanner with its innermost frame closed. -/
def pop (s : Scanner) : Scanner :=
  { s with stack := s.stack.tail }

/-- One character inside a block comment. -/
def stepComment (s : Scanner) (c : Char) (rest : List Char) : Move :=
  if c = '*' ∧ rest.head? = some '/' then .skip { s with region := .code } else .next s

/-- One character inside a quoted string: a doubled marker is text, a marker before a brace opens a
template sequence. -/
def stepQuoted (s : Scanner) (c : Char) (rest : List Char) : Move :=
  if c = '\\' then .skip s
  else if c = '"' then .next s.pop
  else if c = '$' ∨ c = '%' then
    if rest.head? = some c then .skip s
    else if rest.head? = some '{' then .skip (s.push .template)
    else .next s
  else .next s

/-- One character of expression code. -/
def stepCode (s : Scanner) (c : Char) (rest : List Char) : Move :=
  if c = '"' then .next (s.push .quoted)
  else if isOpener c then .next (s.push .bracket)
  else if isCloser c then .next s.pop
  else if c = '#' then .stop s
  else if c = '/' ∧ rest.head? = some '/' then .stop s
  else if c = '/' ∧ rest.head? = some '*' then .skip { s with region := .comment }
  else if c = '<' ∧ rest.head? = some '<' then
    let marker := heredocMarker rest.tail
    if marker.isEmpty then .skip s else .stop { s with region := .heredoc marker }
  else .next s

/-- One character, with the rest of its line to look ahead at. -/
def step (s : Scanner) (c : Char) (rest : List Char) : Move :=
  match s.region with
  | .code => if s.inQuoted then stepQuoted s c rest else stepCode s c rest
  | _ => stepComment s c rest

/-- The characters of a line one after the other. -/
def run (s : Scanner) : List Char → Scanner
  | [] => s
  | c :: rest =>
    match s.step c rest with
    | .next s => run s rest
    | .skip s =>
      match rest with
      | [] => s
      | _ :: rest => run s rest
    | .stop s => s

/-- One line.  A line of a heredoc only matters if it is its marker. -/
def scan (s : Scanner) (line : List Char) : Scanner :=
  match s.region with
  | .heredoc marker => if trim line = marker then { s with region := .code } else s
  | _ => s.run line

@[simp]
theorem run_nil (s : Scanner) : s.run [] = s := rfl

/-- Outside heredocs a line is read character by character. -/
theorem scan_of_code {s : Scanner} (h : s.region = .code) (line : List Char) :
    s.scan line = s.run line := by
  simp [scan, h]

end Scanner

end HclQuery.Layout
