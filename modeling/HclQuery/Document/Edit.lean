import HclQuery.Document.Basic

/-!
# Editing documents

The edits that filters make: adding blocks, setting and removing attributes, deleting blocks and
reordering them.

Main results:

- Theorem {lit}`applyAll_append`: edits one after the other.
-/

namespace HclQuery

namespace Document

/-- A change to a document. -/
inductive Edit where
  /-- A block at the end. -/
  | push (block : Block)
  /-- A block in front of the one at an index, or at the end. -/
  | insert (index : Nat) (block : Block)
  /-- A block at the end of those inside the block at an index. -/
  | child (index : Nat) (block : Block)
  /-- An attribute of every block of a type. -/
  | set (kind name raw : String)
  /-- No attribute of a name in any block. -/
  | unset (name : String)
  /-- No block of a type. -/
  | deleteKind (kind : String)
  /-- No block with a label. -/
  | deleteLabel (label : String)
  /-- The blocks in reverse order. -/
  | reverse
  /-- No blocks at all. -/
  | clear
  deriving Repr

end Document

namespace Block

/-- The block with its attributes changed. -/
def mapAttributes (f : Attributes → Attributes) : Block → Block
  | mk k l m bs => mk k l (f m) bs

/-- The block with a block added at the end of those inside it. -/
def pushInner (inner : Block) : Block → Block
  | mk k l m bs => mk k l m (bs ++ [inner])

end Block

namespace Document

/-- The document after a change. -/
def apply (d : Document) : Edit → Document
  | .push b => ⟨d.blocks ++ [b]⟩
  | .insert i b => ⟨d.blocks.take i ++ b :: d.blocks.drop i⟩
  | .child i b => ⟨d.blocks.modify i (Block.pushInner b)⟩
  | .set kind name raw =>
    ⟨d.blocks.map fun b =>
      if b.kind == kind then b.mapAttributes (·.insert name raw) else b⟩
  | .unset name => ⟨d.blocks.map (Block.mapAttributes (·.erase name))⟩
  | .deleteKind kind => ⟨d.blocks.filter fun b => b.kind != kind⟩
  | .deleteLabel label => ⟨d.blocks.filter fun b => !b.labels.contains label⟩
  | .reverse => ⟨d.blocks.reverse⟩
  | .clear => empty

/-- The document after changes, one after the other. -/
def applyAll (d : Document) (es : List Edit) : Document :=
  es.foldl apply d

/-- Edits one after the other. -/
theorem applyAll_append (d : Document) (es fs : List Edit) :
    d.applyAll (es ++ fs) = (d.applyAll es).applyAll fs := by
  simp [applyAll]

end Document

end HclQuery
