import HclQuery.CommandLine.Run

/-!
# The program

The outer layer: it reads the files that a run may need, runs, and prints what the run comes to.
Only this module acts on the world.
-/

namespace HclQuery

/-- Why the system refuses something. -/
def OsError.ofIO (e : IO.Error) : OsError :=
  match e with
  | .noFileOrDirectory .. => .notFound
  | .permissionDenied .. => .permissionDenied
  | .inappropriateType _ code _ => if code = 21 then .isDirectory else .notDirectory
  | e => .other (toString e)

/-- What there is at a path, by what came of reading it.  Whatever cannot be read and is no
directory counts as something that cannot be opened. -/
def Entry.ofRead (outcome : Except IO.Error ByteArray) : Entry :=
  match outcome with
  | .ok content => .file content.toList
  | .error e =>
    match OsError.ofIO e with
    | .isDirectory => .directory
    | reason => .locked reason

/-- What a path leads to.  That there is something does not hang on whether it can be read. -/
def lookUp (path : String) : IO (String × Except OsError Entry) := do
  let found ← (IO.FS.realPath path).toBaseIO
  let outcome ← (IO.FS.readBinFile path).toBaseIO
  match found, outcome with
  | .error _, .error e => return (path, .error (.ofIO e))
  | _, _ => return (path, .ok (.ofRead outcome))

/-- The programs of the system under the paths where they are looked up. -/
def systemPrograms : List (String × Except OsError Entry) :=
  ["/bin", "/usr/bin"].flatMap fun directory =>
    Host.programNames.map fun name => (Host.inDirectory directory name, .ok (.program name))

/-- The paths that a run may look at. -/
def candidates (environment : Environment) (args : List String) : List String :=
  let attached := args.filterMap fun arg =>
    match arg.toList.dropWhile (· != '=') with
    | _ :: value => some (String.ofList value)
    | [] => none
  let file := (environment Settings.fileVariable).toList
  let names := FilterCommand.defaultProgram ::
    ((environment Settings.programVariable).toList ++ args ++ attached)
  let found := (Host.searchPath environment).flatMap fun directory =>
    names.map (Host.inDirectory directory)
  args ++ attached ++ file ++ found

/-- All bytes of a stream. -/
partial def readAll (stream : IO.FS.Stream) (before : ByteArray) : IO ByteArray := do
  let chunk ← stream.read 65536
  if chunk.isEmpty then return before else readAll stream (before ++ chunk)

end HclQuery

open HclQuery HclQuery.CommandLine in
/-- Runs a command line. -/
def main (args : List String) : IO UInt32 := do
  let names := [Settings.fileVariable, Settings.programVariable, "PATH"]
  let values ← names.mapM fun name => return (name, ← IO.getEnv name)
  let environment : Environment := fun name =>
    (values.find? fun v => v.1 == name).bind (·.2)
  let entries ← (candidates environment args).mapM lookUp
  let host : Host := ⟨.ofEntries (systemPrograms ++ entries), environment⟩
  let needed :=
    match Request.ofArguments args with
    | .ok r => r.readsStdin
    | .error _ => false
  let stdin ← if needed then readAll (← IO.getStdin) .empty else pure .empty
  let run := Run.ofArguments host stdin.toList args
  (← IO.getStdout).write ⟨run.output.toArray⟩
  (← IO.getStderr).putStr run.remarks
  return run.code.toUInt32
