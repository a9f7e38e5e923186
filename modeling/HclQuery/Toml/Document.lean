import HclQuery.Toml.Reader

/-!
# TOML: documents

The statements of a document build up one table.  Pairs belong to the table of the header before
them; those before any header belong to the document itself.

Main definitions:

- {lit}`Place`: the table that pairs are added to.
- {lit}`build?`: the table of a sequence of statements.
- {lit}`parse?`: the table of a text.
-/

namespace HclQuery.Toml

/-- The table that pairs are added to: the path to it from the document. -/
abbrev Place := List Key

/-- The document with a pair in the table at a place. -/
def addPair (place : Place) (path : List Key) (key : Key) (value : Value) (document : Value) :
    Option Value :=
  let add (table : Value) : Option Value :=
    (table.insert path key value).map fun t =>
      match value.span with
      | some span => t.reach span
      | none => t
  Value.alterAt false add place document

/-- The document after a statement, and the table that pairs go to after it. -/
def step? (place : Place) (document : Value) : Statement → Option (Place × Value)
  | .pair path key value => (addPair place path key value document).map fun d => (place, d)
  | .header path key span =>
    (Value.alterAt false (Value.openTable key span) path document).map fun d => (path ++ [key], d)
  | .element path key span =>
    (Value.alterAt false (Value.openElement key span) path document).map fun d =>
      (path ++ [key], d)

/-- The document after statements. -/
def buildFrom? (place : Place) (document : Value) : List Statement → Option Value
  | [] => some document
  | s :: ss =>
    match step? place document s with
    | none => none
    | some (place, document) => buildFrom? place document ss

/-- The table of a sequence of statements, unless they contradict each other. -/
def build? (ss : List Statement) : Option Value :=
  buildFrom? [] .empty ss

/-- The table of a text, unless the text is malformed. -/
def parse? (t : List Char) : Option Value := do
  let ts ← tokens? t
  let ss ← statements? ts
  build? ss

end HclQuery.Toml
