import HclQuery.Toml.Scalar
import HclQuery.Toml.Token

/-!
# TOML: values and tables

A document is a table.  Tables arise in several ways: from a header, from braces, or because a
header or a dotted key names something inside them; what may be added to a table later depends on
that.

Main definitions:

- {lit}`Value`: a value with the place where it stands.
- {lit}`Value.insert`: a table with a value under a dotted key.
- {lit}`Value.openTable`, {lit}`Value.openElement`: a table with the one that a header begins.
-/

namespace HclQuery.Toml

/-- A key with the place where it first stands. -/
structure Key where
  name : String
  span : Span
  deriving DecidableEq, Repr

/-- How a table came to be. -/
inductive Origin where
  /-- It is the whole document or has a header of its own. -/
  | explicit
  /-- It stands in braces. -/
  | braces
  /-- A header names a table inside it. -/
  | implied
  /-- A dotted key names a value inside it. -/
  | dotted
  deriving DecidableEq, Repr

/-- Whether a path may go through a table.  Nothing is added to braces from outside; headers may go
through every other table, and dotted keys only through those that no header stands for. -/
def Origin.admits (dotted : Bool) : Origin → Bool
  | .braces => false
  | .explicit => !dotted
  | .implied => true
  | .dotted => true

/-- A value with the place where it stands. -/
inductive Value where
  | scalar (span : Span) (value : Scalar)
  | array (span : Span) (elements : List Value)
  /-- A table; one that nothing but its parts stands for has no place. -/
  | table (origin : Origin) (span : Option Span) (entries : List (Key × Value))
  /-- The tables under headers in double brackets. -/
  | tables (elements : List Value)
  deriving Repr

/-- The entries of a table, in the order in which their keys first appear. -/
abbrev Entries := List (Key × Value)

namespace Value

/-- The empty document. -/
def empty : Value := .table .explicit none []

/-- The place of a value that is no row of tables. -/
def ownSpan : Value → Option Span
  | scalar span _ => some span
  | array span _ => some span
  | table _ span _ => span
  | tables _ => none

/-- The place of a value, if anything stands for it as a whole. -/
def span : Value → Option Span
  | tables ts =>
    match ts.head?.bind ownSpan, ts.getLast?.bind ownSpan with
    | some first, some last => some ⟨first.start, last.stop⟩
    | _, _ => none
  | v => v.ownSpan

/-- The table reaches up to the end of a span. -/
def reach (v : Value) (last : Span) : Value :=
  match v with
  | table origin (some span) entries => table origin (some ⟨span.start, last.stop⟩) entries
  | v => v

/-! ## Changing entries -/

/-- The value under a key. -/
def find? (name : String) (entries : Entries) : Option Value :=
  (entries.find? fun e => e.1.name == name).map (·.2)

/-- The entries without one of them. -/
def erase (name : String) (entries : Entries) : Entries :=
  entries.filter fun e => e.1.name != name

/-- The entries with what a function makes of the value under a key, in its place; a new entry
stands at the end. -/
def alterEntry (key : Key) (f : Option Value → Option Value) : Entries → Option Entries
  | [] => (f none).map fun v => [(key, v)]
  | (k, v) :: es =>
    if k.name = key.name then (f (some v)).map fun w => (k, w) :: es
    else (alterEntry key f es).map ((k, v) :: ·)

/-- The list with what a function makes of its last element. -/
def alterLast (f : Value → Option Value) : List Value → Option (List Value)
  | [] => none
  | [v] => (f v).map fun w => [w]
  | v :: vs => (alterLast f vs).map (v :: ·)

/-- What a function makes of the table that a path goes through.  Headers also go through the last
table of a row. -/
def through (dotted : Bool) (f : Value → Option Value) : Option Value → Option Value
  | none => f (.table (if dotted then .dotted else .implied) none [])
  | some (.table origin span entries) =>
    if origin.admits dotted then f (.table origin span entries) else none
  | some (.tables ts) => if dotted then none else (alterLast f ts).map .tables
  | some _ => none

/-- The table with what a function makes of the table at the end of a path. -/
def alterAt (dotted : Bool) (f : Value → Option Value) : List Key → Value → Option Value
  | [], v => f v
  | k :: path, .table origin span entries =>
    (alterEntry k (through dotted (alterAt dotted f path)) entries).map (.table origin span)
  | _ :: _, _ => none

/-- The table with a value under a new key.  A dotted key may only add to a table made by dotted
keys, and a plain key never does. -/
def add (dotted : Bool) (key : Key) (value : Value) : Value → Option Value
  | .table origin span entries =>
    if (origin == .dotted) != dotted then none
    else if (find? key.name entries).isSome then none
    else some (.table origin span (entries ++ [(key, value)]))
  | _ => none

/-- The table with a value under a dotted key, which is given by its front and its last part. -/
def insert (table : Value) (path : List Key) (key : Key) (value : Value) : Option Value :=
  alterAt true (add (!path.isEmpty) key value) path table

/-! ## Headers -/

/-- The table with an empty table under a key.  A table that is only implied takes its place at the
end with what it holds. -/
def openTable (key : Key) (place : Span) : Value → Option Value
  | .table origin span entries =>
    match find? key.name entries with
    | none => some (.table origin span (entries ++ [(key, .table .explicit (some place) [])]))
    | some (.table .implied _ inner) =>
      some (.table origin span
        (erase key.name entries ++ [(key, .table .explicit (some place) inner)]))
    | some _ => none
  | _ => none

/-- The table with one more empty table in the row under a key. -/
def openElement (key : Key) (place : Span) : Value → Option Value
  | .table origin span entries =>
    let element := Value.table .explicit (some place) []
    (alterEntry key (fun
      | none => some (.tables [element])
      | some (.tables ts) => some (.tables (ts ++ [element]))
      | some _ => none) entries).map (.table origin span)
  | _ => none

end Value

end HclQuery.Toml
