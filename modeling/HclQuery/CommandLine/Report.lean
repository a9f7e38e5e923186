import HclQuery.Text.Lines

/-!
# Command line: error reports

A report names what failed and what lies behind it, each cause indented and, if there are several,
numbered.

Main definitions:

- {lit}`Failure`: what failed and what lies behind it.
- {lit}`Failure.report`: the report of a failure.

Main results:

- Theorem {lit}`Failure.report_of_no_causes`: a failure without causes is named on a line.
-/

namespace HclQuery.CommandLine

/-- What failed, and what lies behind it, the nearest cause first. -/
structure Failure where
  message : String
  causes : List String
  deriving DecidableEq, Repr

namespace Failure

/-- The failure with a message in front of it. -/
def within (context : String) (f : Failure) : Failure :=
  ⟨context, f.message :: f.causes⟩

/-- A number right-aligned in five places, and a colon. -/
def numbered (n : Nat) : String :=
  let digits := s!"{n}"
  String.ofList (List.replicate (5 - digits.length) ' ') ++ digits ++ ": "

/-- A text with a lead in front of its first line and a margin in front of the others. -/
def indent (lead margin : String) (text : String) : String :=
  lead ++ String.intercalate ("\n" ++ margin) ((Text.lines text.toList).map String.ofList)

/-- The causes in order, each on lines of its own, numbered from `n`. -/
def causeLines (n : Nat) : List String → String
  | [] => ""
  | c :: cs => "\n" ++ indent (numbered n) "       " c ++ causeLines (n + 1) cs

/-- What a report says about causes. -/
def causeReport : List String → String
  | [] => ""
  | [c] => "\n\nCaused by:\n" ++ indent "    " "    " c
  | cs => "\n\nCaused by:" ++ causeLines 0 cs

/-- The report of a failure. -/
def report (f : Failure) : String :=
  "Error: " ++ f.message ++ causeReport f.causes ++ "\n"

/-- A failure without causes is named on a line. -/
theorem report_of_no_causes (message : String) :
    report ⟨message, []⟩ = "Error: " ++ message ++ "" ++ "\n" := rfl

end Failure

end HclQuery.CommandLine
