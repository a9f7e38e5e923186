import HclQuery.CommandLine.Arguments
import HclQuery.CommandLine.Report
import HclQuery.Host
import HclQuery.Query
import HclQuery.Settings.Source

/-!
# Command line: runs

A run reads its settings and its input, does what is asked for, and ends with output, remarks and an
exit code.  Settings are fixed before any input is read, and input is read before any filter is run.

Main definitions:

- {lit}`resolveSettings`: the settings of a query.
- {lit}`Run.ofRequest`: what a request comes to.
- {lit}`Run.ofArguments`: what a command line comes to.

Main results:

- Theorem {lit}`override_program`: a program named on the command line goes before all others.
-/

namespace HclQuery.CommandLine

/-! ## Settings -/

/-- The settings with what the command line asks for. -/
def override (r : QueryRequest) (s : Settings) : Settings where
  strict := s.strict || r.strict
  filter := {
    program := r.program.getD s.filter.program
    args := if r.args.isEmpty then s.filter.args else r.args }

/-- A program named on the command line goes before all others. -/
theorem override_program (r : QueryRequest) (s : Settings) {program : String}
    (h : r.program = some program) : (override r s).filter.program = program := by
  simp [override, h]

/-- The source that settings are read from: a file that the environment names has to exist. -/
def effectiveSource (host : Host) (source : SettingsSource) : SettingsSource :=
  match source with
  | .environment path => if host.disk.leads path then source else .defaults
  | _ => source

/-- The warning about a file that the environment names and that does not exist. -/
def warning (host : Host) (source : SettingsSource) : String :=
  match source with
  | .environment path =>
    if host.disk.leads path then ""
    else s!"Warning: {Settings.fileVariable} is set but path doesn't exist: {path}\n"
  | _ => ""

/-- The failure of settings that are refused. -/
def settingsFailure (e : SettingsError) : Failure := ⟨e.message, e.causes⟩

/-- The settings of a query: those of a file, then of the environment, then of the command line. -/
def resolveSettings (host : Host) (r : QueryRequest) : Except Failure Settings :=
  let source := SettingsSource.locate r.file host.environment
  match (effectiveSource host source).load host.disk with
  | .error e => .error (settingsFailure e)
  | .ok s =>
    let s := override r (s.withEnvironment host.environment)
    match s.problem? with
    | some message => .error ⟨s!"invalid filter settings: {message}", []⟩
    | none => .ok s

/-! ## Runs -/

/-- What a run comes to. -/
structure Run where
  code : Nat
  output : List UInt8
  remarks : String
  deriving DecidableEq, Repr

namespace Run

/-- A run that succeeds. -/
def success (output : List UInt8) (remarks : String) : Run := ⟨0, output, remarks⟩

/-- A run that fails after some remarks. -/
def failure (remarks : String) (f : Failure) : Run := ⟨1, [], remarks ++ f.report⟩

/-- What becomes of a result. -/
def ofResult (remarks : String) (r : Except Failure (List UInt8)) : Run :=
  match r with
  | .ok output => success output remarks
  | .error f => failure remarks f

/-- The input of a run. -/
def inputOf (host : Host) (stdin : List UInt8) (files : List String) : Except Failure Input :=
  (Input.gather host.disk stdin files).mapError fun e => ⟨e.message, e.causes⟩

/-- What a filter says besides its output, when it is given the document of an input. -/
def filterRemarks (host : Host) (s : Settings) (expression : String) (source : List UInt8) :
    String :=
  match toDocument source with
  | .error _ => ""
  | .ok d =>
    match s.filter.run host expression d.encode with
    | .ok o => o.remarks
    | .error _ => ""

/-- A query of an input with settings that are fixed. -/
def answerQuery (host : Host) (remarks : String) (s : Settings) (expression : String)
    (input : Input) : Run :=
  let remarks := remarks ++ filterRemarks host s expression input.bytes
  match Query.execute (s.filter.filter host) s.strict expression input.bytes with
  | .ok o => success o.bytes remarks
  | .error e => failure remarks (.within s!"query failed for {input.name}" ⟨e.message, e.causes⟩)

/-- A query. -/
def ofQuery (host : Host) (stdin : List UInt8) (r : QueryRequest) : Run :=
  let remarks := warning host (SettingsSource.locate r.file host.environment)
  match resolveSettings host r with
  | .error f => failure remarks f
  | .ok s =>
    match inputOf host stdin r.files with
    | .error f => failure remarks f
    | .ok input => answerQuery host remarks s r.expression input

/-- The JSON of an input, with a newline after it. -/
def toJson (pretty : Bool) (input : Input) : Except Failure (List UInt8) :=
  match toDocument input.bytes with
  | .error e => .error (.within s!"failed to parse {input.name}" ⟨e.message, e.causes⟩)
  | .ok d => .ok ((if pretty then d.encodePretty else d.encode) ++ [0x0a])

/-- The configuration text of an input that is JSON. -/
def fromJson (input : Input) : Except Failure (List UInt8) :=
  match Document.decode input.bytes with
  | .error f =>
    .error (.within s!"{input.name} is not a tq JSON document" ⟨f.message input.bytes, []⟩)
  | .ok d => .ok (fromDocument d)

/-- What a request comes to. -/
def ofRequest (host : Host) (stdin : List UInt8) : Request → Run
  | .query r => ofQuery host stdin r
  | .toJson files pretty => ofResult "" ((inputOf host stdin files).bind (toJson pretty))
  | .fromJson files => ofResult "" ((inputOf host stdin files).bind fromJson)

/-- What is said about arguments that are not understood. -/
def usage : String := "Usage: tq [OPTIONS] <COMMAND>\n"

/-- What is said about the version. -/
def versionText : String := "tq 0.1.0\n"

/-- What a command line comes to. -/
def ofArguments (host : Host) (stdin : List UInt8) (args : List String) : Run :=
  match Request.ofArguments args with
  | .ok r => ofRequest host stdin r
  | .error .version => success (Text.Utf8.encode versionText.toList) ""
  | .error .help => success (Text.Utf8.encode usage.toList) ""
  | .error .usage => ⟨2, [], usage⟩

end Run

end HclQuery.CommandLine
