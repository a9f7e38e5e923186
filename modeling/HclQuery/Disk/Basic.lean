import HclQuery.Text.Utf8

/-!
# Disks

A disk says what each path leads to: a file, a directory, a program, something that is there and
cannot be opened, or a reason why it leads nowhere.

Main definitions:

- {lit}`Disk`: what paths lead to.
- {lit}`Disk.leads`: there is something at a path, be it readable or not.
- {lit}`Disk.openAt`: what can be opened at a path.
- {lit}`Disk.read`: the bytes of a file.
- {lit}`Disk.readText`: the text of a file.

Main results:

- Theorem {lit}`Disk.read_of_file`: a file is read as it is.
- Theorem {lit}`Disk.leads_of_locked`: what cannot be opened is there.
- Theorem {lit}`Disk.readText_of_locked`: there is no text in it.
-/

namespace HclQuery

open Text

/-- Why the operating system refuses something. -/
inductive OsError where
  | notFound
  | permissionDenied
  | notDirectory
  | isDirectory
  | brokenPipe
  /-- The text of a file is no UTF-8. -/
  | invalidText
  /-- A path holds a NUL. -/
  | nulInPath
  /-- The name or an argument of a program holds a NUL. -/
  | nulInArgument
  /-- Anything else, in the words of the system. -/
  | other (text : String)
  deriving DecidableEq, Repr

/-- The wording of a refusal. -/
def OsError.message : OsError → String
  | notFound => "No such file or directory (os error 2)"
  | permissionDenied => "Permission denied (os error 13)"
  | notDirectory => "Not a directory (os error 20)"
  | isDirectory => "Is a directory (os error 21)"
  | brokenPipe => "Broken pipe (os error 32)"
  | invalidText => "stream did not contain valid UTF-8"
  | nulInPath => "file name contained an unexpected NUL byte"
  | nulInArgument => "nul byte found in provided data"
  | other text => text

/-- What a path leads to. -/
inductive Entry where
  | file (content : List UInt8)
  | directory
  /-- One of the programs of the system. -/
  | program (name : String)
  /-- Something that is there and cannot be opened. -/
  | locked (reason : OsError)
  deriving DecidableEq, Repr

/-- What a path leads to, if it can be opened. -/
def Entry.opened : Entry → Except OsError Entry
  | locked reason => .error reason
  | entry => .ok entry

/-- What paths lead to. -/
structure Disk where
  /-- What a path leads to, or why it leads nowhere. -/
  find : String → Except OsError Entry

namespace Disk

/-- Whether there is something at a path.  It need not be possible to open it. -/
def leads (disk : Disk) (path : String) : Bool :=
  (disk.find path).isOk

/-- What can be opened at a path. -/
def openAt (disk : Disk) (path : String) : Except OsError Entry :=
  (disk.find path).bind Entry.opened

/-- The bytes behind an entry. -/
def contents : Entry → Except OsError (List UInt8)
  | .file content => .ok content
  | .directory => .error .isDirectory
  | .program _ => .ok []
  | .locked reason => .error reason

/-- The bytes of a file. -/
def read (disk : Disk) (path : String) : Except OsError (List UInt8) :=
  (disk.openAt path).bind contents

/-- The text of a file. -/
def readText (disk : Disk) (path : String) : Except OsError (List Char) :=
  match disk.read path with
  | .error e => .error e
  | .ok bytes =>
    match Utf8.decode bytes with
    | .ok t => .ok t
    | .error _ => .error .invalidText

/-- The disk on which paths lead where a list says, and nowhere else. -/
def ofEntries (entries : List (String × Except OsError Entry)) : Disk where
  find path :=
    match entries.find? fun e => e.1 == path with
    | some e => e.2
    | none => .error .notFound

variable {disk : Disk} {path : String}

/-- A file can be opened. -/
theorem openAt_of_file {content : List UInt8} (h : disk.find path = .ok (.file content)) :
    disk.openAt path = .ok (.file content) := by
  rw [openAt, h]
  rfl

/-- A file is read as it is. -/
theorem read_of_file {content : List UInt8} (h : disk.find path = .ok (.file content)) :
    disk.read path = .ok content := by
  rw [read, openAt_of_file h]
  rfl

/-- What cannot be opened is there. -/
theorem leads_of_locked {reason : OsError} (h : disk.find path = .ok (.locked reason)) :
    disk.leads path = true := by
  rw [leads, h]
  rfl

/-- What cannot be opened is not read. -/
theorem read_of_locked {reason : OsError} (h : disk.find path = .ok (.locked reason)) :
    disk.read path = .error reason := by
  rw [read, openAt, h]
  rfl

/-- There is no text in what cannot be opened. -/
theorem readText_of_locked {reason : OsError} (h : disk.find path = .ok (.locked reason)) :
    disk.readText path = .error reason := by
  rw [readText, read_of_locked h]

end Disk

end HclQuery
