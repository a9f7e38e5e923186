import HclQuery.Mismatch
import HclQuery.Settings.Basic
import HclQuery.Toml.Document
import HclQuery.Toml.Report

/-!
# Settings: decoding

Settings are decoded from a TOML table.  A field that is missing has its default value, a field that
is not known is refused, and the filter may also be given as the list of its fields.

Main definitions:

- {lit}`Settings.ofTable`: the settings of a table.
-/

namespace HclQuery.Settings

open Toml (Key Value Span)

/-! ## Faults -/

/-- What is wrong with a value. -/
inductive Cause where
  | mismatch (found : Found) (expected : String)
  | unknownField (name : String) (known : String × String)
  deriving DecidableEq, Repr

/-- The wording of a cause; numbers are written positionally. -/
def Cause.message : Cause → String
  | mismatch found expected => found.mismatch .positional expected
  | unknownField name (first, second) =>
    s!"unknown field `{name}`, expected `{first}` or `{second}`"

/-- What is wrong, and where, if the place is known. -/
structure Fault where
  cause : Cause
  span : Option Span
  deriving DecidableEq, Repr

/-- The fault with a place, if it has none yet. -/
def Fault.at (span : Option Span) (f : Fault) : Fault :=
  ⟨f.cause, f.span.or span⟩

/-- A value as messages see it. -/
def found : Value → Found
  | .scalar _ (.string s) => .string s
  | .scalar _ (.integer n) => .integer n
  | .scalar _ (.float x) => .float x
  | .scalar _ (.boolean b) => .boolean b
  | .scalar _ (.datetime _) => .map
  | .array .. => .sequence
  | .tables _ => .sequence
  | .table .. => .map

/-- The refusal of a value of the wrong shape. -/
def refuse {α : Type} (v : Value) (expected : String) : Except Fault α :=
  .error ⟨.mismatch (found v) expected, v.span⟩

/-! ## Values -/

/-- The elements of a list. -/
def elements? : Value → Option (List Value)
  | .array _ vs => some vs
  | .tables vs => some vs
  | _ => none

/-- A boolean. -/
def boolean (v : Value) : Except Fault Bool :=
  match v with
  | .scalar _ (.boolean b) => .ok b
  | _ => refuse v "a boolean"

/-- A string. -/
def string (v : Value) : Except Fault String :=
  match v with
  | .scalar _ (.string s) => .ok s
  | _ => refuse v "a string"

/-- The strings that values are. -/
def stringList : List Value → Except Fault (List String)
  | [] => .ok []
  | v :: vs =>
    match string v with
    | .error f => .error f
    | .ok s =>
      match stringList vs with
      | .error f => .error f
      | .ok ss => .ok (s :: ss)

/-- A list of strings. -/
def strings (v : Value) : Except Fault (List String) :=
  match elements? v with
  | some vs => stringList vs
  | none => refuse v "a sequence"

/-! ## Tables -/

/-- The result of a field, whose faults are placed at its value or, if nothing stands for that, at
its key. -/
def field {α : Type} (key : Key) (v : Value) (r : Except Fault α) : Except Fault α :=
  r.mapError (Fault.at (v.span.or (some key.span)))

/-- The refusal of a field that is not known. -/
def unknown {α : Type} (key : Key) (known : String × String) : Except Fault α :=
  .error ⟨.unknownField key.name known, some key.span⟩

/-- The fields of a filter. -/
def filterFields : String × String := ("program", "args")

/-- The filter with the fields of a table. -/
def filterEntries (c : FilterCommand) : Toml.Entries → Except Fault FilterCommand
  | [] => .ok c
  | (key, v) :: es =>
    if key.name = "program" then
      match field key v (string v) with
      | .ok program => filterEntries { c with program } es
      | .error f => .error f
    else if key.name = "args" then
      match field key v (strings v) with
      | .ok args => filterEntries { c with args } es
      | .error f => .error f
    else unknown key filterFields

/-- The filter with the fields of a list, in order; elements past the last field are not looked
at. -/
def filterElements : List Value → Except Fault FilterCommand
  | [] => .ok .default
  | [v] => (string v).map fun program => ⟨program, FilterCommand.defaultArgs⟩
  | v :: w :: _ =>
    match string v with
    | .error f => .error f
    | .ok program => (strings w).map fun args => ⟨program, args⟩

/-- The field as which decoders see a date or time. -/
def datetimeField : String := "$__toml_private_datetime"

/-- A filter. -/
def filterOf (v : Value) : Except Fault FilterCommand :=
  match v with
  | .table _ _ entries => filterEntries .default entries
  | .array _ vs => filterElements vs
  | .tables vs => filterElements vs
  | .scalar span (.datetime _) => .error ⟨.unknownField datetimeField filterFields, some span⟩
  | .scalar .. => refuse v "struct FilterConfig"

/-- The settings with the fields of a table. -/
def entries (s : Settings) : Toml.Entries → Except Fault Settings
  | [] => .ok s
  | (key, v) :: es =>
    if key.name = "strict" then
      match field key v (boolean v) with
      | .ok strict => entries { s with strict } es
      | .error f => .error f
    else if key.name = "filter" then
      match field key v (filterOf v) with
      | .ok filter => entries { s with filter } es
      | .error f => .error f
    else unknown key ("strict", "filter")

/-- The settings of a table. -/
def ofTable (v : Value) : Except Fault Settings :=
  match v with
  | .table _ _ es => entries .default es
  | _ => refuse v "struct QueryConfig"

end HclQuery.Settings
