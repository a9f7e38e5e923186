import HclQuery.Proofs.Document.WellFormed
import HclQuery.Proofs.Text.Utf8
import Mathlib.Data.List.Dedup
import Mathlib.Data.List.Sort

/-!
# The normal form of a syntax tree

The tree of the document of a tree has one attribute for each name, in the order of the bytes of the
names, in front of the blocks of a body, and an empty line after each block of the file.  This is
said of the items of the tree alone; documents do not occur in it.

Main definitions:

- {lit}`Body.names`: the attribute names of a body in order, each of them once.
- {lit}`Body.settled`: one attribute for each name.
- {lit}`Body.normalize`: the normal form of a tree.
- {lit}`Document.leftTrimmed`: a document without blanks in front of its values.

Main results:

- Theorem {lit}`Body.names_pairwise`: the names are in strictly ascending order of their bytes.
- Theorem {lit}`Attributes.toItems_eq_foldl_set`: setting the attributes one after the other never
  replaces one.
- Theorem {lit}`Block.ofItems_toItems`: blocks survive as items, but for the blanks in front of
  their values.
- Theorem {lit}`document_normalizes`: going through the document takes a tree to its normal form.
-/

namespace HclQuery

open Text HclQuery.Tree

/-! ## The normal form -/

namespace Tree

/-- The bytes of a name do not come after those of another. -/
def BytesLE (m n : String) : Prop :=
  Utf8.encode m.toList ≤ Utf8.encode n.toList

instance : DecidableRel BytesLE := fun m n =>
  inferInstanceAs (Decidable (Utf8.encode m.toList ≤ Utf8.encode n.toList))

/-- The attribute with its value after one space. -/
def Attribute.spaced (a : Attribute) : Attribute :=
  ⟨a.name, String.ofList (' ' :: trimStart a.raw.toList)⟩

namespace Body

/-- The attribute names of a body, each of them once, in the order of their bytes. -/
def names (b : Body) : List String :=
  (b.attributes.map (·.name)).dedup.insertionSort BytesLE

/-- The last attribute of a name. -/
def last? (b : Body) (name : String) : Option Attribute :=
  b.attributes.reverse.find? fun a => a.name == name

/-- One attribute for each name in a body: the last one. -/
def settled (b : Body) : List Item :=
  (names b).filterMap fun n => (last? b n).map fun a => .attr a.spaced

mutual

/-- The normal form of an item inside a block: nothing is left of an item that is no block. -/
def normalizeItem : Item → List Item
  | .block kind labels body => [.block kind labels (settled body ++ normalizeItems body)]
  | .attr _ => []
  | .blank => []

/-- The blocks among items in normal form. -/
def normalizeItems : List Item → List Item
  | [] => []
  | i :: is => normalizeItem i ++ normalizeItems is

end

/-- The normal form of a tree: its blocks, with an empty line after each. -/
def normalize (b : Body) : Body :=
  (normalizeItems b).flatMap fun i => [i, .blank]

end Body

/-! ## The order of names -/

/-- Texts are in the order of their bytes when they are in the order of their code points. -/
theorem bytesLE_iff {m n : String} : BytesLE m n ↔ m ≤ n := by
  rw [BytesLE, ← List.not_lt, Utf8.encode_lt_encode_iff, String.not_lt]

instance : Std.Total BytesLE :=
  ⟨fun m n => by
    rw [bytesLE_iff, bytesLE_iff]
    exact String.le_total m n⟩

instance : IsTrans String BytesLE :=
  ⟨fun _ _ _ h h' => bytesLE_iff.2 (String.le_trans (bytesLE_iff.1 h) (bytesLE_iff.1 h'))⟩

namespace Body

theorem mem_names {b : Body} {n : String} : n ∈ names b ↔ n ∈ b.attributes.map (·.name) := by
  rw [names, List.mem_insertionSort, List.mem_dedup]

/-- The names are in strictly ascending order of their bytes. -/
theorem names_pairwise (b : Body) :
    (names b).Pairwise fun m n => Utf8.encode m.toList < Utf8.encode n.toList := by
  have hsorted : (names b).Pairwise BytesLE := List.pairwise_insertionSort ..
  have hnodup : (names b).Nodup :=
    (List.perm_insertionSort ..).nodup_iff.2 (List.nodup_dedup _)
  refine (hsorted.and hnodup).imp fun {m n} h => ?_
  have hle : m ≤ n := bytesLE_iff.1 h.1
  rw [Utf8.encode_lt_encode_iff]
  exact String.not_le.1 fun hge => h.2 (String.le_antisymm hle hge)

end Body

end Tree

/-! ## The attributes of a body -/

namespace Attributes

/-- What is found of a name is the last attribute of that name. -/
theorem get?_ofBody (b : Body) (n : String) :
    (ofBody b).get? n = (Body.last? b n).map fun a => String.ofList (trimStart a.raw.toList) := by
  rw [ofBody, get?_ofList, Body.last?, ← List.map_reverse]
  induction b.attributes.reverse with
  | nil => rfl
  | cons a as ih =>
    rw [List.map_cons, List.lookup_cons, List.find?_cons]
    by_cases hn : n = a.name
    · simp [hn]
    · rw [beq_false_of_ne hn, beq_false_of_ne (Ne.symm hn)]
      exact ih

/-- The names in the map of a body are those of its attributes. -/
theorem names_ofBody (b : Body) : (ofBody b).names = Body.names b := by
  have hsorted : (ofBody b).names.Pairwise (· < ·) := List.pairwise_map.2 (ofBody b).sorted
  have hsorted' : (Body.names b).Pairwise (· < ·) :=
    (Body.names_pairwise b).imp Utf8.encode_lt_encode_iff.1
  have hmem : ∀ n, n ∈ (ofBody b).names ↔ n ∈ Body.names b := by
    intro n
    have hget : n ∈ (ofBody b).names ↔ ((ofBody b).get? n).isSome :=
      mem_map_fst_iff_lookup (ofBody b).entries n
    rw [hget, get?_ofBody, Option.isSome_map, Body.last?, List.find?_isSome, Body.mem_names]
    simp
  exact hsorted.eq_of_mem_iff hsorted' @hmem

/-- The items of the map of a body are its settled attributes. -/
theorem toItems_ofBody (b : Body) : (ofBody b).toItems = Body.settled b := by
  have hnames : (ofBody b).entries.map (·.1) = Body.names b := names_ofBody b
  rw [toItems, entries_eq_filterMap, hnames, List.map_filterMap, Body.settled]
  refine List.filterMap_congr fun n _ => ?_
  have hname : ∀ a, Body.last? b n = some a → a.name = n := fun a h => by
    simpa using List.find?_some h
  rw [get?_ofBody]
  cases hlast : Body.last? b n with
  | none => rfl
  | some a => simp [Attribute.spaced, hname a hlast]

end Attributes

/-! ## Items one after the other -/

/-- Setting a new attribute puts it at the end. -/
theorem Tree.Body.set_of_forall_not_named {b : Body} {name raw : String}
    (h : ∀ i ∈ b, i.isNamed name = false) : Body.set b name raw = b ++ [.attr ⟨name, raw⟩] := by
  induction b with
  | nil => rfl
  | cons i is ih =>
    rw [Body.set, h i (List.mem_cons_self ..), if_neg Bool.false_ne_true,
      ih fun j hj => h j (List.mem_cons_of_mem _ hj)]
    rfl

/-- Setting the attributes one after the other never replaces one. -/
theorem Attributes.toItems_eq_foldl_set (m : Attributes) :
    m.toItems =
      m.entries.foldl (fun b e => Body.set b e.1 (String.ofList (' ' :: e.2.toList))) [] := by
  have hstep : ∀ (es : List (String × String)) (b : Body), es.Pairwise (fun a b => a.1 < b.1) →
      (∀ i ∈ b, ∀ e ∈ es, i.isNamed e.1 = false) →
      es.foldl (fun b e => Body.set b e.1 (String.ofList (' ' :: e.2.toList))) b =
        b ++ es.map fun e => .attr ⟨e.1, String.ofList (' ' :: e.2.toList)⟩ := by
    intro es
    induction es with
    | nil =>
      intro b _ _
      exact (List.append_nil b).symm
    | cons e es ih =>
      intro b hsorted hb
      rw [List.pairwise_cons] at hsorted
      rw [List.foldl_cons,
        Body.set_of_forall_not_named fun i hi => hb i hi e (List.mem_cons_self ..),
        ih _ hsorted.2, List.append_assoc]
      · rfl
      · intro i hi e' he'
        rcases List.mem_append.1 hi with hi | hi
        · exact hb i hi e' (List.mem_cons_of_mem _ he')
        · rw [List.mem_singleton.1 hi]
          exact beq_false_of_ne (String.ne_of_lt (hsorted.1 e' he'))
  exact (hstep m.entries [] m.sorted fun i hi => absurd hi List.not_mem_nil).symm

/-- The items of attributes are one attribute for each entry, with a space in front of the text. -/
theorem Attributes.attributes_toItems (m : Attributes) :
    Body.attributes m.toItems =
      m.entries.map fun e => ⟨e.1, String.ofList (' ' :: e.2.toList)⟩ := by
  rw [toItems, Body.attributes, List.filterMap_map]
  exact congrFun List.filterMap_eq_map m.entries

/-- Items that are attributes are no blocks of a document. -/
theorem Attributes.ofItems_toItems (m : Attributes) (b : Body) :
    Block.ofItems (m.toItems ++ b) = Block.ofItems b := by
  rw [toItems]
  induction m.entries with
  | nil => rfl
  | cons e es ih => exact ih

/-- Items that are blocks are no attributes. -/
theorem Block.attributes_toItems (bs : List Block) : Body.attributes (Block.toItems bs) = [] := by
  induction bs with
  | nil => rfl
  | cons b bs ih =>
    rcases b with ⟨kind, labels, m, inner⟩
    rw [Block.toItems, Block.toItem]
    exact ih

/-! ## Documents without blanks in front of their values -/

/-- The map without blanks in front of its values. -/
def Attributes.leftTrimmed (m : Attributes) : Attributes :=
  m.mapValues fun v => String.ofList (trimStart v.toList)

namespace Block

mutual

/-- A block without blanks in front of its values. -/
def leftTrimmed : Block → Block
  | mk kind labels m bs => mk kind labels m.leftTrimmed (leftTrimmedList bs)

/-- Blocks without blanks in front of their values. -/
def leftTrimmedList : List Block → List Block
  | [] => []
  | b :: bs => b.leftTrimmed :: leftTrimmedList bs

end

end Block

/-- A document without blanks in front of its values. -/
def Document.leftTrimmed (d : Document) : Document :=
  ⟨Block.leftTrimmedList d.blocks⟩

theorem trimStart_trimStart (t : List Char) : trimStart (trimStart t) = trimStart t :=
  (beginsVisible_trimStart t).trimStart_eq

/-- The attributes that were written after one space are read without it. -/
theorem Attributes.ofBody_toItems (m : Attributes) (bs : List Block) :
    Attributes.ofBody (m.toItems ++ Block.toItems bs) = m.leftTrimmed := by
  have hspace : ∀ v : List Char, trimStart (' ' :: v) = trimStart v := fun v =>
    trimStart_append (a := [' ']) (blanks_replicate 1) v
  rw [ofBody, Body.attributes_append, Block.attributes_toItems, List.append_nil,
    attributes_toItems, List.map_map]
  simp only [Function.comp_def, String.toList_ofList, hspace]
  exact ofList_entries m.leftTrimmed

/-- What is read from a body is trimmed at the front already. -/
theorem Attributes.leftTrimmed_ofBody (b : Body) : (ofBody b).leftTrimmed = ofBody b := by
  apply eq_of_entries
  have hentry : ∀ e ∈ (ofBody b).entries, (e.1, String.ofList (trimStart e.2.toList)) = e := by
    intro e he
    rcases List.mem_map.1 (mem_of_mem_ofList he) with ⟨a, -, rfl⟩
    rw [String.toList_ofList, trimStart_trimStart]
  exact (List.map_congr_left hentry).trans (List.map_id _)

mutual

/-- A block survives as an item, but for the blanks in front of its values. -/
theorem Block.ofItem_toItem : (b : Block) → Block.ofItem b.toItem = some b.leftTrimmed
  | .mk kind labels m bs => by
    rw [Block.toItem, Block.ofItem, Attributes.ofBody_toItems, Attributes.ofItems_toItems,
      Block.ofItems_toItems bs, Block.leftTrimmed]

/-- Blocks survive as items, but for the blanks in front of their values. -/
theorem Block.ofItems_toItems : (bs : List Block) →
    Block.ofItems (Block.toItems bs) = Block.leftTrimmedList bs
  | [] => rfl
  | b :: bs => by
    rw [Block.toItems, Block.ofItems, Block.ofItem_toItem b, Block.ofItems_toItems bs,
      Block.leftTrimmedList]

end

/-- The empty lines between the blocks of a file are no blocks. -/
theorem Block.ofItems_toTree (d : Document) :
    Block.ofItems d.toTree = Block.leftTrimmedList d.blocks := by
  rw [Document.toTree]
  induction d.blocks with
  | nil => rfl
  | cons b bs ih =>
    have hblank : Block.ofItems (.blank :: bs.flatMap fun b => [b.toItem, .blank]) =
        Block.ofItems (bs.flatMap fun b => [b.toItem, .blank]) := rfl
    rw [List.flatMap_cons, List.cons_append, List.cons_append, List.nil_append, Block.ofItems,
      Block.ofItem_toItem, Block.leftTrimmedList, hblank, ih]

mutual

/-- A block that is read from an item is trimmed at the front already. -/
theorem Block.leftTrimmed_ofItem : (i : Item) → (Block.ofItem i).map leftTrimmed = Block.ofItem i
  | .block kind labels body => by
    rw [Block.ofItem, Option.map_some, Block.leftTrimmed, Attributes.leftTrimmed_ofBody,
      Block.leftTrimmedList_ofItems body]
  | .attr _ => rfl
  | .blank => rfl

/-- The values of the blocks of a tree have no blanks in front. -/
theorem Block.leftTrimmedList_ofItems : (is : List Item) →
    Block.leftTrimmedList (Block.ofItems is) = Block.ofItems is
  | [] => rfl
  | i :: is => by
    have hitem := Block.leftTrimmed_ofItem i
    rw [Block.ofItems]
    cases hi : Block.ofItem i with
    | none => exact Block.leftTrimmedList_ofItems is
    | some b =>
      rw [hi, Option.map_some, Option.some.injEq] at hitem
      rw [Block.leftTrimmedList, hitem, Block.leftTrimmedList_ofItems is]

end

/-! ## Through the document -/

mutual

/-- Reading an item and writing it again normalizes it. -/
theorem Block.toItem_ofItem : (i : Item) →
    ((Block.ofItem i).map Block.toItem).toList = Body.normalizeItem i
  | .block kind labels body => by
    rw [Block.ofItem, Option.map_some, Block.toItem, Attributes.toItems_ofBody,
      Block.toItems_ofItems body, Body.normalizeItem]
    rfl
  | .attr _ => rfl
  | .blank => rfl

/-- The blocks among items become the blocks in normal form. -/
theorem Block.toItems_ofItems : (is : List Item) →
    Block.toItems (Block.ofItems is) = Body.normalizeItems is
  | [] => rfl
  | i :: is => by
    have hitem := Block.toItem_ofItem i
    rw [Block.ofItems, Body.normalizeItems, ← hitem]
    cases Block.ofItem i with
    | none => exact Block.toItems_ofItems is
    | some b => exact congrArg (b.toItem :: ·) (Block.toItems_ofItems is)

end

/-- The tree of a document has a blank after each of its blocks. -/
theorem Document.toTree_eq_flatMap_toItems (d : Document) :
    d.toTree = (Block.toItems d.blocks).flatMap fun i => [i, .blank] := by
  rw [toTree]
  induction d.blocks with
  | nil => rfl
  | cons b bs ih => rw [List.flatMap_cons, ih, Block.toItems, List.flatMap_cons]

/-- The tree of the document of a tree is its normal form. -/
theorem Document.toTree_ofTree (b : Body) : (ofTree b).toTree = b.normalize := by
  rw [toTree_eq_flatMap_toItems, ofTree, Block.toItems_ofItems, Body.normalize]

/-- A normal form is its own normal form. -/
theorem Tree.Body.normalize_normalize (b : Body) : b.normalize.normalize = b.normalize := by
  have hblocks : Document.ofTree (Document.ofTree b).toTree = Document.ofTree b := by
    rw [Document.ofTree, Block.ofItems_toTree, Document.ofTree, Block.leftTrimmedList_ofItems]
  rw [← Document.toTree_ofTree b, ← Document.toTree_ofTree, hblocks]

/-- Going through the document takes a tree to its normal form, which stays as it is from then on,
and the canonical text of the document is that of the normal form. -/
theorem document_normalizes (b : Body) :
    (Document.ofTree b).toTree = b.normalize ∧
      b.normalize.normalize = b.normalize ∧
      fromDocument (Document.ofTree b) = Utf8.encode (Layout.format b.normalize) := by
  refine ⟨Document.toTree_ofTree b, b.normalize_normalize, ?_⟩
  rw [fromDocument, Document.render, String.toList_ofList, Document.toTree_ofTree]

end HclQuery
