import HclQuery.Shell.Arithmetic
import HclQuery.Shell.Tools

/-!
# Shell: states

What a script has at a point of its run: what is left of standard input, where its two outputs lead,
its variables and arguments, how the last pipeline ended, and what has been written so far.  The
words of a command become fields here.

Main definitions:

- {lit}`State`: what a script has at a point of its run.
- {lit}`Outcome`: what a program has done when it is over.
- {lit}`fieldsOf`: the fields of a word.

Main results:

- Theorem {lit}`fieldsOf_fixed`: text that stands for itself is one field.
-/

namespace HclQuery.Shell

/-- Where an output leads. -/
inductive Sink where
  | output
  | complaint
  | nowhere
  | file (path : String)
  deriving DecidableEq, Repr

/-- Where the two outputs lead. -/
structure Sinks where
  one : Sink
  two : Sink
  deriving DecidableEq, Repr

/-- Why the commands that follow are not run. -/
inductive Ending where
  | exited (status : Nat)
  | killed
  /-- A loop is left, or its body is. -/
  | left (again : Bool)
  deriving DecidableEq, Repr

/-- The values that a script is started with. -/
structure Setting where
  disk : Disk
  environment : String → Option String
  /-- The name of the script. -/
  name : String

/-- What a script has at a point of its run. -/
structure State where
  stdin : Source
  /-- How many bytes of standard input have been given up. -/
  abandoned : Nat
  sinks : Sinks
  /-- The files that have been written, the last one first. -/
  files : List (String × List UInt8)
  bindings : List (String × String)
  arguments : List String
  status : Nat
  /-- Whether a command that fails ends the script. -/
  strict : Bool
  /-- Whether a command may fail all the same. -/
  guarded : Bool
  /-- What has been written, piece by piece, the last piece first. -/
  output : List (List UInt8)
  /-- What has been complained about, piece by piece, the last piece first. -/
  complaint : List (List UInt8)
  ending : Option Ending

/-- What a program has done when it is over. -/
structure Outcome where
  output : List UInt8
  complaint : List UInt8
  /-- Its exit status, unless a signal ended it. -/
  status : Option Nat
  /-- How many bytes of its input were never read. -/
  unread : Nat

namespace State

/-- The state at the start of a script. -/
def start (arguments : List String) (stdin : Source) : State :=
  ⟨stdin, 0, ⟨.output, .complaint⟩, [], [], arguments, 0, false, false, [], [], none⟩

/-- The bytes of a file that has been written. -/
def fileBytes (s : State) (path : String) : List UInt8 :=
  ((s.files.find? fun f => f.1 == path).map (·.2)).getD []

/-- The disk with the files that have been written. -/
def disk (s : State) (setting : Setting) : Disk where
  find path :=
    match s.files.find? fun f => f.1 == path with
    | some f => .ok (.file f.2)
    | none => setting.disk.find path

/-- The state after some bytes have gone where a sink leads. -/
def write (s : State) (sink : Sink) (bytes : List UInt8) : State :=
  match sink with
  | .output => { s with output := bytes :: s.output }
  | .complaint => { s with complaint := bytes :: s.complaint }
  | .nowhere => s
  | .file path => { s with files := (path, s.fileBytes path ++ bytes) :: s.files }

/-- The state after a complaint of the script itself. -/
def complain (s : State) (setting : Setting) (line status : Nat) (message : String) : State :=
  { s.write s.sinks.two (bytesOf s!"{setting.name}: {line}: {message}\n") with status }

/-- The state in which a variable has a value. -/
def bind (s : State) (name value : String) : State :=
  { s with bindings := (name, value) :: s.bindings }

/-- What has been written. -/
def written (s : State) : List UInt8 :=
  s.output.reverse.flatten

/-- The status with which a script ends in this state. -/
def lastStatus (s : State) : Nat :=
  match s.ending with
  | some (.exited n) => n
  | _ => s.status

/-- The outcome of a run that is in a state at its end. -/
def outcome (s : State) : Outcome where
  output := s.written
  complaint := s.complaint.reverse.flatten
  status := if s.ending = some .killed then none else some s.lastStatus
  unread := s.abandoned + (s.stdin.getD []).length

/-- The state around a part that cannot change it: only what the part has read, written and failed
at is kept, and its death. -/
def around (outer inner : State) : State :=
  { outer with
    stdin := inner.stdin
    files := inner.files
    output := inner.output
    complaint := inner.complaint
    status := inner.lastStatus
    ending := if inner.ending = some .killed then some .killed else outer.ending }

end State

/-- Where a descriptor leads. -/
def Sinks.get (k : Sinks) (n : Nat) : Sink :=
  if n = 1 then k.one else if n = 2 then k.two else .nowhere

/-- The sinks with a descriptor that leads somewhere else. -/
def Sinks.put (k : Sinks) (n : Nat) (sink : Sink) : Sinks :=
  if n = 1 then { k with one := sink } else if n = 2 then { k with two := sink } else k

/-! ## Parameters -/

/-- The value of a variable: one of the script or of its environment. -/
def valueOf (setting : Setting) (s : State) (name : String) : String :=
  match s.bindings.find? fun v => v.1 == name with
  | some v => v.2
  | none => (setting.environment name).getD ""

/-- The value of a parameter with a plain name, as one text. -/
def parameter (setting : Setting) (s : State) (name : List Char) : String :=
  match name with
  | ['#'] => s!"{s.arguments.length}"
  | ['@'] => " ".intercalate s.arguments
  | ['*'] => " ".intercalate s.arguments
  | ['?'] => s!"{s.status}"
  | ['$'] => "$"
  | ['0'] => setting.name
  | name =>
    match (String.ofList name).toNat? with
    | some n => (s.arguments[n - 1]?).getD ""
    | none => valueOf setting s (String.ofList name)

/-- The value of a parameter, of which the length may be asked for, and which may have a text to
stand in for it if it is empty. -/
def parameterOrElse (setting : Setting) (s : State) (name : List Char) : String :=
  match name with
  | '#' :: c :: r => s!"{(parameter setting s (c :: r)).length}"
  | name =>
    let plain := name.takeWhile (· != ':')
    match name.drop plain.length with
    | ':' :: '-' :: instead =>
      let value := parameter setting s plain
      if value.isEmpty then String.ofList instead else value
    | _ => parameter setting s name

/-! ## Fields -/

/-- A piece of a word with its value. -/
inductive Part where
  /-- Text that stands for itself; some of it may mean more in a pattern unless it is quoted. -/
  | fixed (quoted : Bool) (cs : List Char)
  /-- Text that is divided at its blanks. -/
  | divided (cs : List Char)
  /-- The arguments, each of which is a field of its own. -/
  | arguments (values : List String)
  deriving DecidableEq, Repr

/-- The fields of a word, the last one first, each as its characters in reverse; the first one is
still open if there is one. -/
structure Fields where
  finished : List (List Char)
  current : Option (List Char)

namespace Fields

/-- The fields with more characters in the last one. -/
def add (f : Fields) (cs : List Char) : Fields :=
  { f with current := some (cs.reverse ++ f.current.getD []) }

/-- The fields with an end to the last one. -/
def cut (f : Fields) : Fields :=
  match f.current with
  | some c => ⟨c :: f.finished, none⟩
  | none => f

/-- The fields with a value that is divided at its blanks. -/
def split (f : Fields) (value : List Char) : Fields :=
  value.foldl (fun f c => if c = ' ' ∨ c = '\t' ∨ c = '\n' then f.cut else f.add [c]) f

/-- The fields with all arguments, each in a field of its own. -/
def addAll (f : Fields) : List String → Fields
  | [] => f
  | [a] => f.add a.toList
  | a :: as => (f.add a.toList).cut.addAll as

/-- The fields with a piece of a word. -/
def part (f : Fields) : Part → Fields
  | .fixed _ cs => f.add cs
  | .divided cs => f.split cs
  | .arguments values => f.addAll values

end Fields

/-- The fields of a word.  One that has no pieces at all is an empty field. -/
def fieldsOf (ps : List Part) : List String :=
  let start : Fields := ⟨[], if ps.isEmpty then some [] else none⟩
  (ps.foldl Fields.part start).cut.finished.reverse.map fun cs => String.ofList cs.reverse

/-- Text that stands for itself is one field. -/
theorem fieldsOf_fixed (quoted : Bool) (cs : List Char) :
    fieldsOf [.fixed quoted cs] = [String.ofList cs] := by
  simp [fieldsOf, Fields.part, Fields.add, Fields.cut]

/-- The value of a word as one text. -/
def textOf (ps : List Part) : List Char :=
  ps.flatMap fun
    | .fixed _ cs => cs
    | .divided cs => cs
    | .arguments values => (" ".intercalate values).toList

/-- The characters of a word that is a pattern, with those that are quoted marked. -/
def patternOf (ps : List Part) : List (Bool × Char) :=
  ps.flatMap fun
    | .fixed quoted cs => cs.map fun c => (quoted, c)
    | .divided cs => cs.map fun c => (false, c)
    | .arguments values => (" ".intercalate values).toList.map fun c => (true, c)

end HclQuery.Shell
