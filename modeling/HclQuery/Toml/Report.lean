import HclQuery.Text.Lines
import HclQuery.Toml.Token

/-!
# TOML: reports

A report shows the line in which something is wrong, with carets under the place.

Main definitions:

- {lit}`report`: what is wrong at a span of a text.
-/

namespace HclQuery.Toml

open Text

/-- The line of a byte offset and the characters of that line before it, counted from zero. -/
def lineColumn (t : List Char) (offset : Nat) : Nat × Nat :=
  let front := takeBytes t offset
  (front.count '\n', (front.reverse.takeWhile (· != '\n')).length)

/-- How many carets stand under a span: one for each of its bytes in the line, and at least one. -/
def caretCount (line : List Char) (column : Nat) (span : Span) : Nat :=
  max 1 (min (span.stop - span.start) (byteLength line - column))

/-- Spaces in a row. -/
def spaces (n : Nat) : String :=
  String.ofList (List.replicate n ' ')

/-- What is wrong at a span of a text, with the line under which carets mark it. -/
def report (t : List Char) (span : Span) (message : String) : String :=
  let (row, column) := lineColumn t span.start
  let line := ((lines t)[row]?).getD []
  let number := s!"{row + 1}"
  let margin := spaces (number.length + 1)
  s!"TOML parse error at line {number}, column {column + 1}\n" ++
    margin ++ "|\n" ++
    number ++ " | " ++ String.ofList line ++ "\n" ++
    margin ++ "|" ++ spaces (column + 1) ++
    String.ofList (List.replicate (caretCount line column span) '^') ++ "\n" ++
    message ++ "\n"

end HclQuery.Toml
