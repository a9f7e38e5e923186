import HclQuery.Proofs.Configuration
import HclQuery.Proofs.Document.NormalForm
import HclQuery.Proofs.Grammar.Parsed

/-!
# Looking up attributes in the tree and in the document

A block of a tree has its place among the blocks around it, and it has the same place in the
document.  Of a name the tree finds the first attribute in the block, and the document holds the
last one.  The bodies that are read may hold a name twice, so the two may differ: they agree just on
the names whose first attribute is the last one.

Main definitions:

- {lit}`Tree.Body.blockAt?`, {lit}`Document.blockAt?`: the block at a place of a tree and of a
  document.
- {lit}`Tree.Attribute.value`: the text of a value without the blanks in front of it.

Main results:

- Theorem {lit}`Document.blockAt?_ofTree`: the blocks of a document are in the places of those of
  the tree.
- Theorem {lit}`parseTree_value`: there are no blanks in front of a value that was read.
- Theorem {lit}`Tree.Body.map_value_eq_iff`, {lit}`Attributes.get?_ofBody_eq_iff`: when the tree and
  the document agree on one name and on all names of a block.
- Theorem {lit}`document_lookup`: what the tree and the document have under a name.
-/

namespace HclQuery

open Text HclQuery.Tree

open Grammar (ItemWellFormed)

/-! ## Places -/

namespace Tree

/-- The text of a value without the blanks in front of it. -/
def Attribute.value (a : Attribute) : String :=
  String.ofList (trimStart a.raw.toList)

/-- The items inside an item. -/
def Item.inner : Item → Body
  | .block _ _ body => body
  | _ => []

/-- The block that is reached from an item by a path: each step goes to one of the blocks inside. -/
def Item.blockAt? (i : Item) : List Nat → Option Item
  | [] => some i
  | n :: path => (Body.blocks i.inner)[n]?.bind (·.blockAt? path)

/-- The block that is reached from the block of a number by a path. -/
def Body.blockAt? (b : Body) (n : Nat) (path : List Nat) : Option Item :=
  (blocks b)[n]?.bind (·.blockAt? path)

end Tree

/-- The block that is reached from a block by a path: each step goes to one of the blocks inside. -/
def Block.blockAt? (b : Block) : List Nat → Option Block
  | [] => some b
  | n :: path => b.blocks[n]?.bind (·.blockAt? path)

/-- The block that is reached from the block of a number by a path. -/
def Document.blockAt? (d : Document) (n : Nat) (path : List Nat) : Option Block :=
  d.blocks[n]?.bind (·.blockAt? path)

/-! ## The blocks in their places -/

section

variable {P : Item → Prop} {path : List Nat} {j : Item}

/-- What holds of a block, and with it of those inside, holds of all that are reached from it. -/
theorem Tree.Item.blockAt?_induction (hstep : ∀ i, P i → ∀ j ∈ Body.blocks i.inner, P j) {i : Item}
    (hi : P i) (h : i.blockAt? path = some j) : P j := by
  induction path generalizing i with
  | nil =>
    cases h
    exact hi
  | cons n path ih =>
    rcases Option.bind_eq_some_iff.1 h with ⟨k, hk, hj⟩
    exact ih (hstep i hi k (List.mem_of_getElem? hk)) hj

/-- What holds of the blocks of a body, and with a block of those in it, holds of every block that a
path leads to. -/
theorem Tree.Body.blockAt?_induction (hstep : ∀ i, P i → ∀ j ∈ Body.blocks i.inner, P j) {b : Body}
    (hb : ∀ i ∈ blocks b, P i) {n : Nat} (h : b.blockAt? n path = some j) : P j := by
  rcases Option.bind_eq_some_iff.1 h with ⟨i, hi, hj⟩
  exact Item.blockAt?_induction hstep (hb i (List.mem_of_getElem? hi)) hj

/-- A path leads to blocks only. -/
theorem Tree.Body.isBlock_blockAt? {b : Body} {n : Nat} (h : b.blockAt? n path = some j) :
    j.isBlock = true :=
  blockAt?_induction (fun _ _ _ hk => (List.mem_filter.1 hk).2)
    (fun _ hi => (List.mem_filter.1 hi).2) h

end

/-! ## The blocks of a document -/

namespace Block

/-- Every block of a tree is read as a block of a document. -/
theorem exists_ofItem {i : Item} (h : i.isBlock = true) : ∃ b, ofItem i = some b := by
  cases i with
  | attr a => simp [Item.isBlock] at h
  | block kind labels body => exact ⟨_, by rw [ofItem]⟩
  | blank => simp [Item.isBlock] at h

/-- The blocks are kept in order, and what is between them is left out. -/
theorem getElem?_ofItems (is : List Item) (n : Nat) :
    (ofItems is)[n]? = (Body.blocks is)[n]?.bind ofItem := by
  induction is generalizing n with
  | nil => rfl
  | cons i is ih =>
    cases i with
    | attr a => exact ih n
    | block kind labels body =>
      cases n with
      | zero => rfl
      | succ n => exact ih n
    | blank => exact ih n

/-- A step to one of the blocks leads to the same block in the tree and in the document. -/
theorem bind_blockAt? {path : List Nat}
    (h : ∀ {i b}, ofItem i = some b → b.blockAt? path = (i.blockAt? path).bind ofItem)
    (is : List Item) (n : Nat) :
    (ofItems is)[n]?.bind (·.blockAt? path) =
      ((Body.blocks is)[n]?.bind (·.blockAt? path)).bind ofItem := by
  rw [getElem?_ofItems]
  cases hi : (Body.blocks is)[n]? with
  | none => rfl
  | some i =>
    have hblock : i.isBlock = true := (List.mem_filter.1 (List.mem_of_getElem? hi)).2
    rcases exists_ofItem hblock with ⟨b, hb⟩
    simp only [Option.bind_some, hb, h hb]

/-- A path leads to the same block in a tree as in the document of the tree. -/
theorem blockAt?_of_ofItem {i : Item} {b : Block} (h : ofItem i = some b) (path : List Nat) :
    b.blockAt? path = (i.blockAt? path).bind ofItem := by
  induction path generalizing i b with
  | nil => simp [blockAt?, Item.blockAt?, h]
  | cons n path ih =>
    cases i with
    | attr a => cases h
    | block kind labels body =>
      cases h
      exact bind_blockAt? (fun h => ih h) body n
    | blank => cases h

end Block

/-- The blocks of a document are in the places of those of the tree. -/
theorem Document.blockAt?_ofTree (b : Body) (n : Nat) (path : List Nat) :
    (ofTree b).blockAt? n path = (b.blockAt? n path).bind Block.ofItem :=
  Block.bind_blockAt? (fun h => Block.blockAt?_of_ofItem h path) b n

/-- The places of a document are those of the tree. -/
theorem Document.blockAt?_ofTree_eq_none_iff (b : Body) (n : Nat) (path : List Nat) :
    (ofTree b).blockAt? n path = none ↔ b.blockAt? n path = none := by
  rw [blockAt?_ofTree]
  cases hi : b.blockAt? n path with
  | none => simp
  | some i =>
    rcases Block.exists_ofItem (Body.isBlock_blockAt? hi) with ⟨block, hblock⟩
    simp [hblock]

/-- The attributes of a block are those of its body in the tree. -/
theorem Block.attributes_of_ofItem {i : Item} {b : Block} (h : ofItem i = some b) :
    b.attributes = .ofBody i.inner := by
  cases i with
  | attr a => cases h
  | block kind labels body =>
    cases h
    rfl
  | blank => cases h

/-! ## What was read -/

/-- The items in a block are as well-formed as the block. -/
theorem Tree.Item.inner_wellFormed {i : Item} (h : ItemWellFormed i) :
    ∀ j ∈ i.inner, ItemWellFormed j := by
  cases h with
  | attr hname hvalue => simp [inner]
  | block hkind hbody => exact hbody
  | blank => simp [inner]

/-- All that is parsed is well-formed. -/
theorem parseTree_wellFormed {source : List UInt8} {b : Body} (h : parseTree source = .ok b) :
    ∀ i ∈ b, ItemWellFormed i := by
  rw [parseTree] at h
  split at h
  · cases h
  · split at h
    · next c hparse =>
      cases h
      exact Grammar.parse_wellFormed hparse
    · cases h

/-- There are no blanks in front of a value that was read. -/
theorem parseTree_value {source : List UInt8} {b : Body} (h : parseTree source = .ok b) {n : Nat}
    {path : List Nat} {i : Item} (hi : b.blockAt? n path = some i) :
    ∀ a ∈ i.inner.attributes, a.value = a.raw := by
  have hwell : ItemWellFormed i :=
    Body.blockAt?_induction (fun _ hj k hk => Item.inner_wellFormed hj k (List.mem_filter.1 hk).1)
      (fun j hj => parseTree_wellFormed h j (List.mem_filter.1 hj).1) hi
  intro a ha
  have hattr := Item.inner_wellFormed hwell _ (Body.mem_attributes_iff.1 ha)
  cases hattr with
  | attr hname hvalue =>
    rw [Attribute.value, hvalue.trimmed.begins.trimStart_eq, String.ofList_toList]

/-! ## The first and the last attribute of a name -/

namespace Tree.Body

variable {b : Body} {name : String} {a : Attribute}

/-- A tree finds no attribute when none has the name. -/
theorem attribute?_eq_none_iff : attribute? b name = none ↔ ∀ a ∈ attributes b, a.name ≠ name := by
  simp [attribute?]

theorem last?_eq_none_iff : last? b name = none ↔ ∀ a ∈ attributes b, a.name ≠ name := by
  simp [last?]

/-- The attribute that a tree finds is in the body and has the name. -/
theorem of_attribute? (h : attribute? b name = some a) : a ∈ attributes b ∧ a.name = name :=
  ⟨List.mem_of_find?_eq_some h, by simpa using List.find?_some h⟩

theorem of_last? (h : last? b name = some a) : a ∈ attributes b ∧ a.name = name := by
  have hmem := List.mem_of_find?_eq_some h
  exact ⟨List.mem_reverse.1 hmem, by simpa using List.find?_some h⟩

/-- Of a name that a body holds there is a last attribute. -/
theorem exists_last? (h : a ∈ attributes b) : ∃ c, last? b a.name = some c := by
  cases hlast : last? b a.name with
  | none => exact absurd rfl (last?_eq_none_iff.1 hlast a h)
  | some c => exact ⟨c, rfl⟩

/-- A name and a text make up an attribute. -/
theorem eq_of_name_of_raw {a c : Attribute} (hname : a.name = c.name) (hraw : a.raw = c.raw) :
    a = c := by
  cases a
  cases c
  rw [Attribute.mk.injEq]
  exact ⟨hname, hraw⟩

/-- The texts of the first and of the last attribute are the same just if the attributes are. -/
theorem map_value_eq_iff (hvalue : ∀ a ∈ attributes b, a.value = a.raw) :
    (last? b name).map Attribute.value = (attribute? b name).map Attribute.value ↔
      attribute? b name = last? b name := by
  constructor
  · intro h
    cases hfirst : attribute? b name with
    | none => rw [eq_comm, last?_eq_none_iff, ← attribute?_eq_none_iff, hfirst]
    | some a =>
      rw [hfirst, Option.map_some, Option.map_eq_some_iff] at h
      rcases h with ⟨c, hlast, hraw⟩
      rcases of_attribute? hfirst with ⟨ha, haname⟩
      rcases of_last? hlast with ⟨hc, hcname⟩
      rw [hvalue a ha, hvalue c hc] at hraw
      rw [hlast, eq_of_name_of_raw (haname.trans hcname.symm) hraw.symm]
  · intro h
    rw [h]

end Tree.Body

/-- No attribute of a body is replaced by another in the map just if those of one name are equal. -/
theorem Attributes.get?_ofBody_eq_iff {b : Body} (hvalue : ∀ a ∈ b.attributes, a.value = a.raw) :
    (∀ a ∈ b.attributes, (ofBody b).get? a.name = some a.value) ↔
      ∀ a ∈ b.attributes, ∀ c ∈ b.attributes, a.name = c.name → a = c := by
  constructor
  · intro h a ha c hc hname
    have hsame : some a.value = some c.value := by rw [← h a ha, ← h c hc, hname]
    rw [hvalue a ha, hvalue c hc, Option.some.injEq] at hsame
    exact Body.eq_of_name_of_raw hname hsame
  · intro h a ha
    rcases Body.exists_last? ha with ⟨c, hlast⟩
    rcases Body.of_last? hlast with ⟨hc, hname⟩
    obtain rfl : c = a := h c hc a ha hname
    rw [get?_ofBody, hlast]
    rfl

/-- Bytes that have a tree have its document.  A place of the tree that a block is in is a place of
the document, and no other is.  In such a place the document holds, under each name, the text of the
last attribute of that name, and nothing if there is none.  It is the text of the first one, which
the tree finds, just if that is the last one; and of a block no attribute is replaced by another
just if those of one name are equal. -/
theorem document_lookup {source : List UInt8} {b : Body} (h : parseTree source = .ok b) :
    toDocument source = .ok (Document.ofTree b) ∧
      ∀ n path,
        ((Document.ofTree b).blockAt? n path = none ↔ b.blockAt? n path = none) ∧
        ∀ i, b.blockAt? n path = some i →
          ∃ block, (Document.ofTree b).blockAt? n path = some block ∧
            Block.ofItem i = some block ∧
            (∀ name, block.attributes.get? name = (i.inner.last? name).map Attribute.value) ∧
            (∀ name, block.attributes.get? name = none ↔ i.inner.attribute? name = none) ∧
            (∀ name, block.attributes.get? name = (i.inner.attribute? name).map Attribute.value ↔
              i.inner.attribute? name = i.inner.last? name) ∧
            ((∀ a ∈ i.inner.attributes, block.attributes.get? a.name = some a.value) ↔
              ∀ a ∈ i.inner.attributes, ∀ c ∈ i.inner.attributes, a.name = c.name → a = c) := by
  refine ⟨by rw [toDocument, h]; rfl, fun n path => ⟨?_, fun i hi => ?_⟩⟩
  · exact Document.blockAt?_ofTree_eq_none_iff b n path
  · have hvalue := parseTree_value h hi
    rcases Block.exists_ofItem (Body.isBlock_blockAt? hi) with ⟨block, hblock⟩
    have hlast := Attributes.get?_ofBody i.inner
    refine ⟨block, ?_, hblock, ?_⟩
    · rw [Document.blockAt?_ofTree, hi, Option.bind_some, hblock]
    · rw [Block.attributes_of_ofItem hblock]
      refine ⟨hlast, ?_, ?_, Attributes.get?_ofBody_eq_iff hvalue⟩
      · intro name
        rw [hlast, Option.map_eq_none_iff, Body.last?_eq_none_iff, Body.attribute?_eq_none_iff]
      · intro name
        rw [hlast]
        exact Body.map_value_eq_iff hvalue

/-- A block inside a block, both of which have the name. -/
def nestedNames : List UInt8 :=
  Utf8.encode "a \x7b\n  x = 1\n  b \x7b\n    x = 2\n  \x7d\n\x7d\n".toList

/-- Of the block inside the tree and the document have the same value. -/
theorem document_lookup_nestedNames :
    ∃ b i block, parseTree nestedNames = .ok b ∧ b.blockAt? 0 [0] = some i ∧
      (Document.ofTree b).blockAt? 0 [0] = some block ∧
      i.inner.attribute? "x" = some ⟨"x", "2"⟩ ∧ block.attributes.get? "x" = some "2" := by
  have hread : (parseTree nestedNames).toOption.bind (fun b => (b.blockAt? 0 [0]).bind fun i =>
      some (i.inner.attribute? "x", i.inner.last? "x")) =
        some (some ⟨"x", "2"⟩, some ⟨"x", "2"⟩) := by
    decide +kernel
  rcases Option.bind_eq_some_iff.1 hread with ⟨b, hb, hpath⟩
  rcases Option.bind_eq_some_iff.1 hpath with ⟨i, hi, hnames⟩
  rw [Option.some.injEq, Prod.mk.injEq] at hnames
  rcases (document_lookup (ok_of_toOption hb)).2 0 [0] with ⟨-, hblocks⟩
  rcases hblocks i hi with ⟨block, hblock, -, hlast, -⟩
  refine ⟨b, i, block, ok_of_toOption hb, hi, hblock, hnames.1, ?_⟩
  rw [hlast, hnames.2]
  decide

/-- A block with two attributes of one name. -/
def doubledName : List UInt8 :=
  Utf8.encode "a \x7b\n  x = 1\n  x = 2\n\x7d\n".toList

/-- The tree finds the first of the two values, and in the document it is replaced by the other. -/
theorem not_document_lookup :
    toDocument doubledName = .ok ⟨[.mk "a" [] (.ofList [("x", "2")]) []]⟩ ∧
      (parseTree doubledName).toOption.bind (fun b => (b.blockAt? 0 []).bind fun i =>
        i.inner.attribute? "x") = some ⟨"x", "1"⟩ ∧
      ¬∀ source b n path i block, parseTree source = .ok b → b.blockAt? n path = some i →
        (Document.ofTree b).blockAt? n path = some block →
        ∀ name, block.attributes.get? name = (i.inner.attribute? name).map Attribute.value := by
  have hdocument : toDocument doubledName = .ok ⟨[.mk "a" [] (.ofList [("x", "2")]) []]⟩ :=
    ok_of_toOption (by decide +kernel)
  have hfirst : (parseTree doubledName).toOption.bind (fun b => (b.blockAt? 0 []).bind fun i =>
      i.inner.attribute? "x") = some ⟨"x", "1"⟩ := by
    decide +kernel
  refine ⟨hdocument, hfirst, ?_⟩
  intro h
  rcases Option.bind_eq_some_iff.1 hfirst with ⟨b, hb, hpath⟩
  rcases Option.bind_eq_some_iff.1 hpath with ⟨i, hi, hx⟩
  rw [toDocument, ok_of_toOption hb] at hdocument
  have hblock : (Document.ofTree b).blockAt? 0 [] =
      some (.mk "a" [] (.ofList [("x", "2")]) []) := by
    rw [Except.ok.inj hdocument]
    rfl
  have hsame := h doubledName b 0 [] i _ (ok_of_toOption hb) hi hblock "x"
  rw [hx] at hsame
  revert hsame
  decide

end HclQuery
