import HclQuery.Disk.Basic

/-!
# Input

The bytes of files and of standard input are joined into one, each followed by a newline, so that a
source without a newline at its end does not run into the next one.

Main definitions:

- {lit}`Input`: bytes with a name for messages.
- {lit}`Input.gatherFrom`: the input made of some paths and of standard input.
- {lit}`Input.gather`: the same where standard input can be read.

Main results:

- Theorem {lit}`Input.gather_nil`: without paths standard input is read.
-/

namespace HclQuery

/-- Why input cannot be gathered. -/
inductive InputError where
  /-- A path cannot be opened. -/
  | unopened (path source : String)
  /-- What a path leads to cannot be read. -/
  | unreadable (name source : String)
  deriving DecidableEq, Repr

namespace InputError

/-- The wording of a failure. -/
def message : InputError → String
  | unopened path source => s!"failed to open {path}: {source}"
  | unreadable name source => s!"failed to read from {name}: {source}"

/-- The wording of what lies behind a failure. -/
def causes : InputError → List String
  | unopened _ source => [source]
  | unreadable _ source => [source]

end InputError

/-- Bytes with a name for messages. -/
structure Input where
  name : String
  bytes : List UInt8
  deriving DecidableEq, Repr

namespace Input

/-- The path that stands for standard input. -/
def dash : String := "-"

/-- The name of standard input. -/
def stdinName : String := "STDIN"

/-- The name of the input made of some paths. -/
def nameOf : List String → String
  | [path] => if path = dash then stdinName else path
  | _ => "COMPOSITE"

/-- The bytes that are left of standard input, or what is said about why it cannot be read. -/
abbrev Stdin := Except String (List UInt8)

/-- The bytes that a path leads to. -/
def readPath (disk : Disk) (path : String) : Except InputError (List UInt8) :=
  match disk.openAt path with
  | .error e => .error (.unopened path e.message)
  | .ok entry =>
    match Disk.contents entry with
    | .error e => .error (.unreadable path e.message)
    | .ok bytes => .ok bytes

/-- The bytes of a source, and what is left of standard input. -/
def readSource (disk : Disk) (stdin : Stdin) (path : String) :
    Except InputError (List UInt8 × Stdin) :=
  if path = dash then
    match stdin with
    | .error e => .error (.unreadable stdinName e)
    | .ok bytes => .ok (bytes, .ok [])
  else (readPath disk path).map fun bytes => (bytes, stdin)

/-- The bytes of sources, each followed by a newline.  The first dash takes all of standard
input. -/
def readAll (disk : Disk) (stdin : Stdin) : List String → Except InputError (List UInt8)
  | [] => .ok []
  | path :: paths =>
    match readSource disk stdin path with
    | .error e => .error e
    | .ok (bytes, stdin) =>
      match readAll disk stdin paths with
      | .error e => .error e
      | .ok rest => .ok (bytes ++ 0x0a :: rest)

/-- The paths that are read: no paths mean standard input. -/
def sources (paths : List String) : List String :=
  if paths.isEmpty then [dash] else paths

/-- The input made of some paths and of standard input. -/
def gatherFrom (disk : Disk) (stdin : Stdin) (paths : List String) : Except InputError Input :=
  (readAll disk stdin (sources paths)).map fun bytes => ⟨nameOf (sources paths), bytes⟩

/-- The same where standard input can be read. -/
def gather (disk : Disk) (stdin : List UInt8) (paths : List String) : Except InputError Input :=
  gatherFrom disk (.ok stdin) paths

/-- Without paths standard input is read. -/
theorem gather_nil (disk : Disk) (stdin : List UInt8) :
    gather disk stdin [] = .ok ⟨"STDIN", stdin ++ [0x0a]⟩ := rfl

end Input

end HclQuery
