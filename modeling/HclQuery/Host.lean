import HclQuery.Filter
import HclQuery.Settings.Basic
import HclQuery.Shell.Run

/-!
# Hosts

Where filters are run: a disk and an environment.  A program is looked up as the operating system
does it, gets the payload on its standard input, and answers on its two outputs.

Main definitions:

- {lit}`Host.search`: the program with a name.
- {lit}`FilterCommand.run`: what a filter program answers to a payload.
- {lit}`FilterCommand.filter`: a program as a filter.

Main results:

- Theorem {lit}`FilterCommand.conclude_unread`: a program that leaves much unread is at fault even
  if it succeeds.
-/

namespace HclQuery

open Text

/-- Where filters are run. -/
structure Host where
  disk : Disk
  environment : Environment

namespace Host

/-! ## Looking up programs -/

/-- What can be run: a program of the system, or a script with the line that names its program. -/
inductive Executable where
  | program (name : String)
  | script (interpreter path : String) (content : List UInt8)
  deriving DecidableEq, Repr

/-- The line after the mark that scripts begin with. -/
def interpreterLine? (content : List UInt8) : Option (List UInt8) :=
  match content with
  | 0x23 :: 0x21 :: rest => some (rest.takeWhile (· != 0x0a))
  | _ => none

/-- What a path leads to, if it can be run. -/
def executable (disk : Disk) (path : String) : Except OsError Executable :=
  match disk.find path with
  | .error e => .error e
  | .ok .directory | .ok (.locked _) => .error .permissionDenied
  | .ok (.program name) => .ok (.program name)
  | .ok (.file content) =>
    match interpreterLine? content with
    | none => .error .permissionDenied
    | some line => .ok (.script (String.ofList (trim (Utf8.lossy line))) path content)

/-- The path of a program in a directory; an empty name stands for the one where paths start. -/
def inDirectory (directory program : String) : String :=
  if directory.isEmpty then program else directory ++ "/" ++ program

/-- The first program with a name in some directories.  A file that may not be run is only reported
if there is no other one. -/
def searchIn (disk : Disk) (program : String) (denied : Bool) :
    List String → Except OsError Executable
  | [] => .error (if denied then .permissionDenied else .notFound)
  | d :: ds =>
    match executable disk (inDirectory d program) with
    | .ok e => .ok e
    | .error .permissionDenied => searchIn disk program true ds
    | .error _ => searchIn disk program denied ds

/-- The directories in which programs are looked up. -/
def searchPath (environment : Environment) : List String :=
  (((environment "PATH").getD "/bin:/usr/bin").toList.splitOn ':').map String.ofList

/-- The program with a name, which is a path if it holds a slash. -/
def search (host : Host) (program : String) : Except OsError Executable :=
  if program.isEmpty then .error .notFound
  else if program.toList.contains '/' then executable host.disk program
  else searchIn host.disk program false (searchPath host.environment)

/-! ## Running programs -/

/-- The outcome of a program that is no shell. -/
def toolOutcome (r : Shell.Result) : Shell.Outcome :=
  ⟨r.output, r.complaint, some r.status, (r.unread.getD []).length⟩

/-- What a script that is given as text does. -/
def runText (host : Host) (name : String) (text : List Char) (args : List String)
    (input : List UInt8) : Shell.Outcome :=
  Shell.runScript ⟨host.disk, host.environment, name⟩ args text input

/-- What the shell does with its arguments. -/
def runShell (host : Host) (args : List String) (input : List UInt8) : Shell.Outcome :=
  match args with
  | "-c" :: script :: name :: args => host.runText name script.toList args input
  | "-c" :: [script] => host.runText "sh" script.toList [] input
  | path :: args =>
    match host.disk.read path with
    | .ok content => host.runText path (Utf8.lossy content) args input
    | .error e =>
      ⟨[], Shell.bytesOf s!"sh: 0: cannot open {path}: {Shell.refusal e}\n", some 2, input.length⟩
  | [] => host.runText "sh" (Utf8.lossy input) [] []

/-- What a program of the system does. -/
def runNamed (host : Host) (name : String) (args : List String) (input : List UInt8) :
    Shell.Outcome :=
  if name = "sh" then host.runShell args input
  else
    match Shell.runTool host.disk none name args (some input) with
    | some r => toolOutcome r
    | none => ⟨[], [], some 127, input.length⟩

/-- The program that a line names, and the argument after it. -/
def interpreterWords (line : String) : List String :=
  ((line.toList.splitOn ' ').filter (· != [])).map String.ofList

/-- What something that can be run does, unless it names a program that is not there. -/
def runExecutable (host : Host) (e : Executable) (args : List String) (input : List UInt8) :
    Except OsError Shell.Outcome :=
  match e with
  | .program name => .ok (host.runNamed name args input)
  | .script line path _ =>
    match interpreterWords line with
    | [] => .error .notFound
    | interpreter :: more =>
      match host.disk.find interpreter with
      | .ok (.program name) => .ok (host.runNamed name (more ++ path :: args) input)
      | .ok _ => .error .permissionDenied
      | .error e => .error e

end Host

/-! ## Filter programs -/

/-- What a filter program answers if it succeeds. -/
structure FilterOutput where
  output : List UInt8
  /-- What it says besides. -/
  remarks : String
  deriving DecidableEq, Repr

namespace FilterCommand

/-- How many bytes a pipe takes that nobody reads. -/
def pipeCapacity : Nat := 65536

/-- The answer of a program that is over.  A program that fails is at fault for that, and only
otherwise for input that it did not take. -/
def conclude (program : String) (o : Shell.Outcome) : Except FilterError FilterOutput :=
  let remarks := String.ofList (Utf8.lossy o.complaint)
  if o.status ≠ some 0 then .error (.exit program (o.status.map Int.ofNat) remarks)
  else if pipeCapacity < o.unread then .error (.write OsError.brokenPipe.message)
  else .ok ⟨o.output, remarks⟩

/-- A program that leaves much unread is at fault even if it succeeds. -/
theorem conclude_unread (program : String) (out err : List UInt8) {n : Nat}
    (h : pipeCapacity < n) :
    conclude program ⟨out, err, some 0, n⟩ = .error (.write OsError.brokenPipe.message) := by
  simp [conclude, h]

/-- The words that a program is started with hold no NUL. -/
def isPassable (words : List String) : Bool :=
  words.all fun w => !w.toList.contains '\x00'

/-- What a filter program answers to a payload. -/
def run (c : FilterCommand) (host : Host) (expression : String) (payload : List UInt8) :
    Except FilterError FilterOutput :=
  let args := c.args ++ [expression]
  if isPassable (c.program :: args) then
    match (host.search c.program).bind fun e => host.runExecutable e args payload with
    | .error e => .error (.spawn c.program e.message)
    | .ok o => conclude c.program o
  else .error (.spawn c.program OsError.nulInArgument.message)

/-- A program as a filter. -/
def filter (c : FilterCommand) (host : Host) : Filter := fun expression payload =>
  (c.run host expression payload).map (·.output)

end FilterCommand

/-- The names of the programs of the system. -/
def Host.programNames : List String :=
  "sh" :: Shell.toolNames

end HclQuery
