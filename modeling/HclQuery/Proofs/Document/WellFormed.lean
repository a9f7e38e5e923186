import HclQuery.Configuration
import HclQuery.Proofs.Document.Attributes
import HclQuery.Proofs.Document.Rendering
import HclQuery.Proofs.Grammar.Items
import HclQuery.Proofs.Layout.Alignment

/-!
# Names and values of a document

A document is well formed if its block types and attribute names are identifiers and its values are
expressions of the grammar.  Values are written re-indented at the depth of their block, so a
document and the one with all values re-indented have the same text.

Main definitions:

- {lit}`Document.WellFormed`: names are identifiers and values are expressions.
- {lit}`Document.reindented`: a document with each value as it is written.

Main results:

- Theorem {lit}`fromDocument_reindented`: re-indenting the values keeps the bytes.
- Theorem {lit}`Document.reindented_of_single`: values of one line stay as they are.
- Theorem {lit}`Document.isExpression_reindented`: re-indented values are expressions.
-/

namespace HclQuery

open Text Layout HclQuery.Tree

namespace Attributes

/-- The attribute names, in order. -/
def names (m : Attributes) : List String :=
  m.entries.map (·.1)

/-- The attribute values, in the order of their names. -/
def values (m : Attributes) : List String :=
  m.entries.map (·.2)

/-- The map with its values changed. -/
def mapValues (f : String → String) (m : Attributes) : Attributes :=
  ⟨m.entries.map fun e => (e.1, f e.2), List.pairwise_map.2 m.sorted⟩

/-- The map with its values as they are written at a depth. -/
def reindented (depth : Nat) (m : Attributes) : Attributes :=
  m.mapValues fun v => String.ofList (reindent depth v.toList)

end Attributes

namespace Block

mutual

/-- The types and attribute names of a block and of the blocks inside it. -/
def names : Block → List String
  | mk kind _ m bs => kind :: (m.names ++ namesList bs)

/-- The types and attribute names of blocks. -/
def namesList : List Block → List String
  | [] => []
  | b :: bs => b.names ++ namesList bs

end

mutual

/-- The attribute values of a block and of the blocks inside it. -/
def values : Block → List String
  | mk _ _ m bs => m.values ++ valuesList bs

/-- The attribute values of blocks. -/
def valuesList : List Block → List String
  | [] => []
  | b :: bs => b.values ++ valuesList bs

end

mutual

/-- A block at a depth with its values as they are written: attributes stand one level deeper. -/
def reindented (depth : Nat) : Block → Block
  | mk kind labels m bs =>
    mk kind labels (m.reindented (depth + 1)) (reindentedList (depth + 1) bs)

/-- Blocks at a depth with their values as they are written. -/
def reindentedList (depth : Nat) : List Block → List Block
  | [] => []
  | b :: bs => b.reindented depth :: reindentedList depth bs

end

end Block

namespace Document

/-- The block types and attribute names of a document. -/
def names (d : Document) : List String :=
  Block.namesList d.blocks

/-- The attribute values of a document. -/
def values (d : Document) : List String :=
  Block.valuesList d.blocks

/-- A document with its values as they are written. -/
def reindented (d : Document) : Document :=
  ⟨Block.reindentedList 0 d.blocks⟩

/-- Names are identifiers and values are expressions. -/
structure WellFormed (d : Document) : Prop where
  names : ∀ n ∈ d.names, Grammar.IsName n.toList
  values : ∀ v ∈ d.values, Grammar.IsExpression v.toList

end Document

/-! ## The text of re-indented values -/

/-- Re-indenting attributes re-indents them as they are laid out. -/
theorem Attributes.toAttributes_reindented (depth : Nat) (m : Attributes) :
    (m.reindented depth).toAttributes = m.toAttributes.map (Layout.reindented depth) := by
  simp only [toAttributes, reindented, mapValues, List.map_map]
  apply List.map_congr_left
  intro e _
  simp only [Function.comp_apply, Layout.reindented, String.toList_ofList, reindent_space]

theorem Attributes.layout_reindented (depth : Nat) (m : Attributes) :
    (m.reindented depth).layout depth = m.layout depth := by
  rw [layout, toAttributes_reindented, assemble_reindented, layout]

mutual

/-- A block is laid out like the re-indented one. -/
theorem Block.layout_reindented : (b : Block) → ∀ depth : Nat,
    (b.reindented depth).layout depth = b.layout depth
  | .mk kind labels m bs => by
    intro depth
    rw [Block.reindented, Block.layout, Block.layout, Attributes.layout_reindented,
      Block.layouts_reindentedList bs]

theorem Block.layouts_reindentedList : (bs : List Block) → ∀ depth : Nat,
    Block.layouts depth (Block.reindentedList depth bs) = Block.layouts depth bs
  | [] => by
    intro depth
    rfl
  | b :: bs => by
    intro depth
    rw [Block.reindentedList, Block.layouts, Block.layouts, Block.layout_reindented b,
      Block.layouts_reindentedList bs]

end

/-- Blocks of the same texts in order make the same page. -/
theorem Block.flatMap_layout_reindentedList (bs : List Block) :
    (Block.reindentedList 0 bs).flatMap (fun b => b.layout 0 ++ ['\n']) =
      bs.flatMap fun b => b.layout 0 ++ ['\n'] := by
  induction bs with
  | nil => rfl
  | cons b bs ih =>
    rw [Block.reindentedList, List.flatMap_cons, Block.layout_reindented, ih, List.flatMap_cons]

/-- Re-indenting the values keeps the bytes. -/
theorem fromDocument_reindented (d : Document) : fromDocument d.reindented = fromDocument d := by
  have hbody : renderBody 0 d.reindented.toTree = renderBody 0 d.toTree := by
    rw [renderBody_toTree, renderBody_toTree]
    exact Block.flatMap_layout_reindentedList d.blocks
  rw [fromDocument, Document.render, format, hbody, fromDocument, Document.render, format]

/-! ## The values of re-indented documents -/

/-- A value of re-indented attributes is a value of the attributes, re-indented. -/
theorem Attributes.mem_values_reindented {depth : Nat} {m : Attributes} {v : String}
    (h : v ∈ (m.reindented depth).values) :
    ∃ depth, ∃ w ∈ m.values, v = String.ofList (reindent depth w.toList) := by
  rw [values, reindented, mapValues, List.map_map] at h
  rcases List.mem_map.1 h with ⟨e, he, rfl⟩
  exact ⟨depth, e.2, List.mem_map_of_mem he, rfl⟩

mutual

/-- A value in a re-indented block is a value in the block, re-indented to some depth. -/
theorem Block.mem_values_reindented : (b : Block) → ∀ (depth : Nat) (v : String),
    v ∈ (b.reindented depth).values →
      ∃ depth, ∃ w ∈ b.values, v = String.ofList (reindent depth w.toList)
  | .mk kind labels m bs => by
    intro depth v hv
    rw [Block.reindented, Block.values] at hv
    rw [Block.values]
    rcases List.mem_append.1 hv with hv | hv
    · rcases Attributes.mem_values_reindented hv with ⟨d, w, hw, rfl⟩
      exact ⟨d, w, List.mem_append_left _ hw, rfl⟩
    · rcases Block.mem_valuesList_reindentedList bs _ v hv with ⟨d, w, hw, rfl⟩
      exact ⟨d, w, List.mem_append_right _ hw, rfl⟩

/-- A value in re-indented blocks is a value in the blocks, re-indented to some depth. -/
theorem Block.mem_valuesList_reindentedList : (bs : List Block) → ∀ (depth : Nat) (v : String),
    v ∈ Block.valuesList (Block.reindentedList depth bs) →
      ∃ depth, ∃ w ∈ Block.valuesList bs, v = String.ofList (reindent depth w.toList)
  | [] => by
    intro depth v hv
    cases hv
  | b :: bs => by
    intro depth v hv
    rw [Block.reindentedList, Block.valuesList] at hv
    rw [Block.valuesList]
    rcases List.mem_append.1 hv with hv | hv
    · rcases Block.mem_values_reindented b _ v hv with ⟨d, w, hw, rfl⟩
      exact ⟨d, w, List.mem_append_left _ hw, rfl⟩
    · rcases Block.mem_valuesList_reindentedList bs _ v hv with ⟨d, w, hw, rfl⟩
      exact ⟨d, w, List.mem_append_right _ hw, rfl⟩

end

/-- Re-indented values are expressions if only blanks of ASCII stand at the ends of their lines. -/
theorem Document.isExpression_reindented {d : Document} (hd : d.WellFormed)
    (hascii : ∀ v ∈ d.values, Grammar.AsciiLineEnds v.toList) :
    ∀ v ∈ d.reindented.values, Grammar.IsExpression v.toList := by
  intro v hv
  rcases Block.mem_valuesList_reindentedList d.blocks 0 v hv with ⟨depth, w, hw, rfl⟩
  rw [String.toList_ofList]
  exact (hd.values w hw).reindent (hascii w hw) depth

/-! ## Values of one line -/

/-- Attributes whose values are expressions of one line are left as they are. -/
theorem Attributes.reindented_of_single {m : Attributes} (depth : Nat)
    (h : ∀ v ∈ m.values, Grammar.IsExpression v.toList ∧ '\n' ∉ v.toList) :
    m.reindented depth = m := by
  apply Attributes.eq_of_entries
  have hentry : ∀ e ∈ m.entries, (e.1, String.ofList (reindent depth e.2.toList)) = e := by
    intro e he
    rcases h e.2 (List.mem_map_of_mem he) with ⟨hexpression, hline⟩
    rw [hexpression.reindent_of_single hline, String.ofList_toList]
  exact (List.map_congr_left hentry).trans (List.map_id m.entries)

mutual

/-- A block whose values are expressions of one line is left as it is. -/
theorem Block.reindented_of_single : (b : Block) → ∀ depth : Nat,
    (∀ v ∈ b.values, Grammar.IsExpression v.toList ∧ '\n' ∉ v.toList) → b.reindented depth = b
  | .mk kind labels m bs => by
    intro depth h
    rw [Block.reindented,
      Attributes.reindented_of_single _ fun v hv => h v (List.mem_append_left _ hv),
      Block.reindentedList_of_single bs _ fun v hv => h v (List.mem_append_right _ hv)]

theorem Block.reindentedList_of_single : (bs : List Block) → ∀ depth : Nat,
    (∀ v ∈ Block.valuesList bs, Grammar.IsExpression v.toList ∧ '\n' ∉ v.toList) →
      Block.reindentedList depth bs = bs
  | [] => by
    intro depth _
    rfl
  | b :: bs => by
    intro depth h
    rw [Block.reindentedList,
      Block.reindented_of_single b _ fun v hv => h v (List.mem_append_left _ hv),
      Block.reindentedList_of_single bs _ fun v hv => h v (List.mem_append_right _ hv)]

end

/-- Values of one line stay as they are. -/
theorem Document.reindented_of_single {d : Document} (hd : d.WellFormed)
    (h : ∀ v ∈ d.values, '\n' ∉ v.toList) : d.reindented = d := by
  have hblocks := Block.reindentedList_of_single d.blocks 0 fun v hv => ⟨hd.values v hv, h v hv⟩
  rw [Document.reindented, hblocks]

end HclQuery
