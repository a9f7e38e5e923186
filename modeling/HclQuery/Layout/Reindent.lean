import HclQuery.Layout.Scanner
import HclQuery.Text.Lines

/-!
# Layout: re-indenting a value

A value of several lines is written so that each line stands at the depth of its brackets.  The
lines of heredocs and block comments are kept as they are.

Main results:

- Theorem {lit}`length_reindentLines`: re-indenting keeps the number of lines.
-/

namespace HclQuery.Layout

open Text

/-- Two spaces for each level. -/
def indent (depth : Nat) : List Char :=
  List.replicate (2 * depth) ' '

/-- The number of closing characters that a line begins with. -/
def leadingClosers (line : List Char) : Nat :=
  (line.takeWhile isCloser).length

/-- A line after the first, as it is written at a depth. -/
def continuation (depth : Nat) (s : Scanner) (line : List Char) : List Char :=
  if s.verbatim then line
  else
    let text := trim line
    if text.isEmpty then [] else indent (depth + (s.depth - leadingClosers text)) ++ text

/-- The scanner after a line that follows the first. -/
def Scanner.after (s : Scanner) (line : List Char) : Scanner :=
  if s.verbatim then s.scan line else s.scan (trim line)

/-- The lines after the first, as they are written at a depth. -/
def continuations (depth : Nat) (s : Scanner) : List (List Char) → List (List Char)
  | [] => []
  | line :: rest => continuation depth s line :: continuations depth (s.after line) rest

/-- The lines of a value, as they are written at a depth. -/
def reindentLines (depth : Nat) : List (List Char) → List (List Char)
  | [] => []
  | first :: rest => trimEnd first :: continuations depth (Scanner.initial.scan first) rest

/-- The text of a value as it is written at a depth, without blanks at either end. -/
def reindent (depth : Nat) (raw : List Char) : List Char :=
  unlines (reindentLines depth (lines (trim raw)))

/-- As many lines come out as go in. -/
theorem length_continuations (depth : Nat) (s : Scanner) (ls : List (List Char)) :
    (continuations depth s ls).length = ls.length := by
  induction ls generalizing s with
  | nil => rfl
  | cons l ls ih => simp [continuations, ih]

/-- Re-indenting keeps the number of lines. -/
theorem length_reindentLines (depth : Nat) (ls : List (List Char)) :
    (reindentLines depth ls).length = ls.length := by
  cases ls with
  | nil => rfl
  | cons l ls => simp [reindentLines, length_continuations]

end HclQuery.Layout
