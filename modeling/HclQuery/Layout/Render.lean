import HclQuery.Label
import HclQuery.Layout.Reindent
import HclQuery.Tree

/-!
# Layout: rendering a tree

The canonical text of a syntax tree: two spaces for each level, the equals signs of neighbouring
single-line attributes in one column, labels always quoted, no blank lines at either end, and one
newline at the end.  A tree with nothing to show has the empty text.

Main definitions:

- {lit}`Run`: attributes that are aligned with each other, or an item by itself.
- {lit}`renderBody`: the text of the items of a body at a depth.
- {lit}`format`: the text of a whole file.
-/

namespace HclQuery.Layout

open Text HclQuery.Tree

/-- A value takes more than one line if a newline is left after trimming. -/
def isMultiline (raw : String) : Bool :=
  (trim raw.toList).contains '\n'

/-- An item with the items inside it already rendered. -/
inductive Entry where
  /-- An attribute. -/
  | attr (a : Attribute)
  /-- The text of any other item. -/
  | text (t : List Char)
  deriving Repr

/-- Entries that are laid out together. -/
inductive Run where
  /-- Single-line attributes next to each other. -/
  | aligned (as : List Attribute)
  /-- An attribute whose value takes several lines. -/
  | alone (a : Attribute)
  /-- The text of an item that is no attribute. -/
  | text (t : List Char)
  deriving Repr

/-- An entry in front of runs: a single-line attribute joins the run of its neighbour. -/
def Run.cons (e : Entry) (runs : List Run) : List Run :=
  match e with
  | .text t => .text t :: runs
  | .attr a =>
    if isMultiline a.raw then .alone a :: runs
    else
      match runs with
      | .aligned as :: runs => .aligned (a :: as) :: runs
      | runs => .aligned [a] :: runs

/-- Entries divided into the longest runs. -/
def runs (es : List Entry) : List Run :=
  es.foldr Run.cons []

/-- The length of the longest name. -/
def nameWidth (as : List Attribute) : Nat :=
  (as.map (·.name.length)).foldr max 0

/-- One attribute, with its name padded to a width. -/
def renderAttribute (depth width : Nat) (a : Attribute) : List Char :=
  indent depth ++ a.name.toList ++ List.replicate (width - a.name.length) ' ' ++
    [' ', '=', ' '] ++ reindent depth a.raw.toList ++ ['\n']

/-- The text of a run. -/
def Run.render (depth : Nat) : Run → List Char
  | .aligned as => as.flatMap (renderAttribute depth (nameWidth as))
  | .alone a => renderAttribute depth 0 a
  | .text t => t

/-- The text of entries. -/
def assemble (depth : Nat) (es : List Entry) : List Char :=
  (runs es).flatMap (Run.render depth)

/-- The line that opens a block. -/
def header (depth : Nat) (kind : String) (labels : List String) : List Char :=
  indent depth ++ kind.toList ++ labels.flatMap (fun l => ' ' :: (Label.quote l).toList) ++
    [' ', '{', '\n']

/-- The line that closes a block. -/
def footer (depth : Nat) : List Char :=
  indent depth ++ ['}', '\n']

mutual

/-- An item with the items inside it rendered. -/
def entry (depth : Nat) : Item → Entry
  | .attr a => .attr a
  | .block kind labels body =>
    .text (header depth kind labels ++ assemble (depth + 1) (entries (depth + 1) body) ++
      footer depth)
  | .blank => .text ['\n']

/-- The items of a body as entries. -/
def entries (depth : Nat) : List Item → List Entry
  | [] => []
  | i :: is => entry depth i :: entries depth is

end

/-- The text of the items of a body at a depth. -/
def renderBody (depth : Nat) (b : Body) : List Char :=
  assemble depth (entries depth b)

/-- The text without the newlines at either end. -/
def trimNewlines (t : List Char) : List Char :=
  ((t.dropWhile (· == '\n')).reverse.dropWhile (· == '\n')).reverse

/-- The canonical text of a whole file. -/
def format (b : Body) : List Char :=
  let text := trimNewlines (renderBody 0 b)
  if text.isEmpty then [] else text ++ ['\n']

end HclQuery.Layout
