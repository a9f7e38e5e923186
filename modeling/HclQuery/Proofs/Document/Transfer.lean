import HclQuery.Proofs.Document.NormalForm

/-!
# Documents built up as trees

The operations of a body are enough to build the tree of a document: attributes are set one after
the other in a new body, blocks are appended after them, and empty lines after the blocks of the
file.  Nothing is replaced on the way, so the tree has every block in its place, and it is read back
as the document without the blanks in front of its values.

Main definitions:

- {lit}`Block.appendTo`, {lit}`Block.appendAll`: a body with blocks appended to it.

Main results:

- Theorem {lit}`Block.appendAll_eq`: appending blocks adds their items at the end.
- Theorem {lit}`Document.leftTrimmed_eq_self_iff`: a document stays as it is if its values begin
  with visible characters.
- Theorem {lit}`Document.ofTree_toTree`: a document survives as a tree.
-/

namespace HclQuery

open Text HclQuery.Tree

/-! ## Operations one after the other -/

/-- A new body in which the attributes are set one after the other, each value after one space. -/
def Attributes.setAll (m : Attributes) : Body :=
  m.entries.foldl (fun b e => b.set e.1 (String.ofList (' ' :: e.2.toList))) []

namespace Block

mutual

/-- The body with a block appended to it, and an empty line after that if asked for.  The blocks
inside are appended to a body in which the attributes are already set. -/
def appendTo (spaced : Bool) (target : Body) : Block → Body
  | mk kind labels m bs =>
    let body := target.appendBlock kind labels (appendAll false m.setAll bs)
    if spaced then body.appendBlank else body

/-- The body with blocks appended to it one after the other. -/
def appendAll (spaced : Bool) (target : Body) : List Block → Body
  | [] => target
  | b :: bs => appendAll spaced (b.appendTo spaced target) bs

end

/-- The item of a block with the empty line after it, if there is one. -/
def spacedItem (spaced : Bool) (b : Block) : List Item :=
  b.toItem :: if spaced then [.blank] else []

/-- Blocks without empty lines after them are their items. -/
theorem flatMap_spacedItem_false (bs : List Block) :
    bs.flatMap (spacedItem false) = toItems bs := by
  induction bs with
  | nil => rfl
  | cons b bs ih => simp [spacedItem, toItems, ← ih]

mutual

/-- Appending a block adds its item at the end. -/
theorem appendTo_eq : (b : Block) → ∀ (spaced : Bool) (target : Body),
    b.appendTo spaced target = target ++ b.spacedItem spaced
  | .mk kind labels m bs => by
    intro spaced target
    have hinner : appendAll false m.setAll bs = m.toItems ++ toItems bs := by
      rw [appendAll_eq bs, flatMap_spacedItem_false, Attributes.setAll,
        ← Attributes.toItems_eq_foldl_set]
    cases spaced with
    | false => simp [appendTo, hinner, Body.appendBlock, spacedItem, toItem]
    | true => simp [appendTo, hinner, Body.appendBlock, Body.appendBlank, spacedItem, toItem]

/-- Appending blocks adds their items at the end. -/
theorem appendAll_eq : (bs : List Block) → ∀ (spaced : Bool) (target : Body),
    appendAll spaced target bs = target ++ bs.flatMap (spacedItem spaced)
  | [] => by simp [appendAll]
  | b :: bs => by
    intro spaced target
    rw [appendAll, appendAll_eq bs, appendTo_eq b, List.append_assoc, List.flatMap_cons]

end

end Block

/-- The tree of a document is built by appending its blocks. -/
theorem Document.toTree_eq_appendAll (d : Document) :
    d.toTree = Block.appendAll true [] d.blocks := by
  rw [Block.appendAll_eq]
  rfl

/-! ## Documents that stay as they are -/

/-- Attributes are trimmed at the front when each of their values begins with a visible character.
-/
theorem Attributes.leftTrimmed_eq_self_iff (m : Attributes) :
    m.leftTrimmed = m ↔ ∀ v ∈ m.values, BeginsVisible v.toList := by
  have hentries : m.leftTrimmed = m ↔
      m.entries.map (fun e => (e.1, String.ofList (trimStart e.2.toList))) = m.entries.map id := by
    rw [List.map_id]
    exact ⟨congrArg Attributes.entries, fun h => eq_of_entries h⟩
  have hentry : ∀ e : String × String,
      (e.1, String.ofList (trimStart e.2.toList)) = id e ↔ BeginsVisible e.2.toList := by
    intro e
    rw [← trimStart_eq_self_iff, id, Prod.ext_iff, and_iff_right rfl, ← String.toList_inj,
      String.toList_ofList]
  rw [hentries, List.map_inj_left]
  simp only [hentry, Attributes.values, List.forall_mem_map]

namespace Block

mutual

/-- A block is trimmed at the front when each value in it begins with a visible character. -/
theorem leftTrimmed_eq_self_iff : (b : Block) →
    (b.leftTrimmed = b ↔ ∀ v ∈ b.values, BeginsVisible v.toList)
  | .mk kind labels m bs => by
    simp only [leftTrimmed, mk.injEq, true_and, values, List.forall_mem_append,
      Attributes.leftTrimmed_eq_self_iff, leftTrimmedList_eq_self_iff bs]

/-- Blocks are trimmed at the front when each value in them begins with a visible character. -/
theorem leftTrimmedList_eq_self_iff : (bs : List Block) →
    (leftTrimmedList bs = bs ↔ ∀ v ∈ valuesList bs, BeginsVisible v.toList)
  | [] => by simp [leftTrimmedList, valuesList]
  | b :: bs => by
    simp only [leftTrimmedList, List.cons.injEq, valuesList, List.forall_mem_append,
      leftTrimmed_eq_self_iff b, leftTrimmedList_eq_self_iff bs]

end

end Block

/-- A document stays as it is if its values begin with visible characters. -/
theorem Document.leftTrimmed_eq_self_iff (d : Document) :
    d.leftTrimmed = d ↔ ∀ v ∈ d.values, BeginsVisible v.toList := by
  have hblocks : d.leftTrimmed = d ↔ Block.leftTrimmedList d.blocks = d.blocks :=
    ⟨congrArg Document.blocks, fun h => congrArg Document.mk h⟩
  rw [hblocks, Block.leftTrimmedList_eq_self_iff, Document.values]

/-- A document survives as a tree: the operations of bodies build its tree, and what is read back
from that is the document without the blanks in front of its values, which is the document itself
just when there are none. -/
theorem Document.ofTree_toTree (d : Document) :
    d.toTree = Block.appendAll true [] d.blocks ∧
      Document.ofTree d.toTree = d.leftTrimmed ∧
      (Document.ofTree d.toTree = d ↔ ∀ v ∈ d.values, BeginsVisible v.toList) := by
  have hread : Document.ofTree d.toTree = d.leftTrimmed := by
    rw [Document.ofTree, Block.ofItems_toTree, Document.leftTrimmed]
  refine ⟨d.toTree_eq_appendAll, hread, ?_⟩
  rw [hread, d.leftTrimmed_eq_self_iff]

end HclQuery
