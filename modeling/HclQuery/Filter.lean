import HclQuery.Text.Blank

/-!
# Filters

A filter gets an expression and the JSON bytes of a document, and gives bytes back.  Most filters
are programs, which may fail in the ways listed here.

Main definitions:

- {lit}`FilterError`: the ways in which a filter fails.
- {lit}`Filter`: a filter.
- {lit}`FilterCommand`: a program with the arguments that come before the expression.
-/

namespace HclQuery

/-- The ways in which a filter fails. -/
inductive FilterError where
  /-- The program cannot be started. -/
  | spawn (program source : String)
  /-- There is no way to hand the program its input. -/
  | stdinUnavailable
  /-- The program did not take all of its input. -/
  | write (source : String)
  /-- The output of the program cannot be read. -/
  | read (source : String)
  /-- Handing over the input was cut off. -/
  | writerPanicked
  /-- The program failed, with an exit status unless a signal ended it. -/
  | exit (program : String) (code : Option Int) (stderr : String)
  deriving DecidableEq, Repr

namespace FilterError

/-- How a program ended, with what it said about it. -/
def exitSummary (code : Option Int) (stderr : String) : String :=
  let status :=
    match code with
    | some code => s!"exited with status {code}"
    | none => "was terminated by a signal"
  let said := String.ofList (Text.trim stderr.toList)
  if said.isEmpty then status else s!"{status}: {said}"

/-- The wording of a failure. -/
def message : FilterError → String
  | spawn program source => s!"failed to start filter program `{program}`: {source}"
  | stdinUnavailable => "filter program stdin was not captured"
  | write source => s!"failed to write filter input: {source}"
  | read source => s!"failed to read filter output: {source}"
  | writerPanicked => "filter input writer panicked"
  | exit program code stderr => s!"filter program `{program}` {exitSummary code stderr}"

/-- The wording of what lies behind a failure, if anything does. -/
def causes : FilterError → List String
  | spawn _ source => [source]
  | write source => [source]
  | read source => [source]
  | _ => []

end FilterError

/-- A filter: from an expression and a payload to an output. -/
abbrev Filter := String → List UInt8 → Except FilterError (List UInt8)

/-- A program with the arguments that come before the expression. -/
structure FilterCommand where
  program : String
  args : List String
  deriving DecidableEq, Repr

namespace FilterCommand

/-- The program that is run unless another one is asked for. -/
def defaultProgram : String := "jq"

/-- The arguments that are given unless others are asked for. -/
def defaultArgs : List String := ["-r"]

/-- The command that is run unless another one is asked for. -/
def default : FilterCommand := ⟨defaultProgram, defaultArgs⟩

/-- The command with other arguments. -/
def withArgs (c : FilterCommand) (args : List String) : FilterCommand :=
  { c with args }

end FilterCommand

end HclQuery
