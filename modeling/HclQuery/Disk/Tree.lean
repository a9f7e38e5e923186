import HclQuery.Disk.Basic

/-!
# Disks: trees of directories

A disk in memory: a tree of directories, in which a path is followed part by part, from the root or
from the directory that relative paths start from.

Main definitions:

- {lit}`Tree`: a file, a program or a directory with what it holds.
- {lit}`Tree.follow`: what a path leads to.
- {lit}`Disk.ofFiles`: a disk whose home directory holds some files.
-/

namespace HclQuery.Disk

/-- A file, a program or a directory with what it holds. -/
inductive Tree where
  | file (content : List UInt8)
  | program (name : String)
  | directory (entries : List (String × Tree))

namespace Tree

/-- What a path that ends here leads to. -/
def entry : Tree → Entry
  | file content => .file content
  | program name => .program name
  | directory _ => .directory

/-- What a directory holds under a name. -/
def child (name : String) : Tree → Except OsError Tree
  | directory entries =>
    match entries.find? fun e => e.1 == name with
    | some e => .ok e.2
    | none => .error .notFound
  | _ => .error .notDirectory

/-- One step along a path, from a place given as the directories from it up to the root. -/
def step (here : List Tree) (name : String) : Except OsError (List Tree) :=
  match here with
  | [] => .error .notFound
  | t :: above =>
    match t with
    | directory _ =>
      if name = "" ∨ name = "." then .ok here
      else if name = ".." then .ok (if above.isEmpty then here else above)
      else (t.child name).map (· :: here)
    | _ => .error .notDirectory

/-- The place at the end of a path. -/
def walk (here : List Tree) : List String → Except OsError (List Tree)
  | [] => .ok here
  | name :: names =>
    match step here name with
    | .ok here => walk here names
    | .error e => .error e

/-- The parts of a path between its slashes. -/
def parts (path : List Char) : List String :=
  (path.splitOn '/').map String.ofList

/-- What a path leads to in a tree whose relative paths start from a place.  An empty path leads
nowhere. -/
def follow (root : Tree) (home : List Tree) (path : String) : Except OsError Entry :=
  match path.toList with
  | [] => .error .notFound
  | c :: t =>
    if '\x00' ∈ c :: t then .error .nulInPath
    else
      let places := if c = '/' then walk [root] (parts t) else walk home (parts (c :: t))
      match places with
      | .error e => .error e
      | .ok [] => .error .notFound
      | .ok (t :: _) => .ok t.entry

/-- The entries with a file at the end of a path, below directories made where they are missing. -/
def insert (content : List UInt8) :
    List String → List (String × Tree) → List (String × Tree)
  | [], entries => entries
  | [name], entries => entries.filter (·.1 != name) ++ [(name, file content)]
  | name :: names, entries =>
    let inner :=
      match entries.find? fun e => e.1 == name with
      | some (_, directory inner) => inner
      | _ => []
    entries.filter (·.1 != name) ++ [(name, directory (insert content names inner))]

/-- A directory with some files, given by their paths. -/
def ofFiles (files : List (String × List UInt8)) : Tree :=
  directory (files.foldl
    (fun entries f =>
      insert f.2 ((parts f.1.toList).filter fun name => name != "" && name != ".") entries) [])

/-- A directory of programs. -/
def ofPrograms (names : List String) : Tree :=
  directory (names.map fun name => (name, program name))

end Tree


/-- A disk whose home directory holds some files, with the programs of the system in their usual
places. -/
def ofFiles (programs : List String) (files : List (String × List UInt8)) : Disk :=
  let home := Tree.ofFiles files
  let bin := Tree.ofPrograms programs
  let tmp := Tree.directory [("home", home)]
  let root := Tree.directory [
    ("bin", bin), ("usr", .directory [("bin", bin)]), ("tmp", tmp),
    ("dev", .directory [("null", .file [])])]
  ⟨Tree.follow root [home, tmp, root]⟩

end HclQuery.Disk
