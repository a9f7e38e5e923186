import HclQuery.Document.Basic
import HclQuery.Layout.Render

/-!
# Documents and syntax trees

A syntax tree becomes a document by keeping its blocks, with one value for each attribute name, and
a document becomes a tree again with its attributes in order of their names.

Main definitions:

- {lit}`Document.ofTree`: the document of a tree.
- {lit}`Document.toTree`: the tree of a document.
- {lit}`Document.render`: the canonical text of a document.
-/

namespace HclQuery

open Text HclQuery.Tree

/-- The attributes of a body, without blanks in front of their values; of equal names the last one
holds. -/
def Attributes.ofBody (b : Body) : Attributes :=
  .ofList (b.attributes.map fun a => (a.name, String.ofList (trimStart a.raw.toList)))

/-- The attributes as items, in order of their names, each value after one space. -/
def Attributes.toItems (m : Attributes) : List Item :=
  m.entries.map fun e => .attr ⟨e.1, String.ofList (' ' :: e.2.toList)⟩

namespace Block

mutual

/-- The block that an item is. -/
def ofItem : Item → Option Block
  | .block kind labels body => some (mk kind labels (.ofBody body) (ofItems body))
  | _ => none

/-- The blocks among items, in order. -/
def ofItems : List Item → List Block
  | [] => []
  | i :: is =>
    match ofItem i with
    | some b => b :: ofItems is
    | none => ofItems is

end

mutual

/-- The item of a block: its attributes come before the blocks inside it. -/
def toItem : Block → Item
  | mk kind labels attributes bs => .block kind labels (attributes.toItems ++ toItems bs)

/-- The items of blocks. -/
def toItems : List Block → List Item
  | [] => []
  | b :: bs => b.toItem :: toItems bs

end

end Block

namespace Document

/-- The document of a tree.  Attributes outside of blocks have no place in it. -/
def ofTree (b : Body) : Document :=
  ⟨Block.ofItems b⟩

/-- The tree of a document, with an empty line after each of its blocks. -/
def toTree (d : Document) : Body :=
  d.blocks.flatMap fun b => [b.toItem, .blank]

/-- The canonical text of a document. -/
def render (d : Document) : String :=
  String.ofList (Layout.format d.toTree)

end Document

end HclQuery
