/-!
# The syntax tree

A configuration is a sequence of items: attributes, whose values are kept as raw expression text,
blocks with further items inside, and blank lines.

Main results:

- Theorem {lit}`attribute?_set_self`: an attribute that was set is found.
- Theorem {lit}`mem_attributes_iff`: the attributes of a body are those among its items.
- Theorem {lit}`blocks_append`: the blocks of two sequences one after the other.
-/

namespace HclQuery.Tree

/-- A name with the text of the expression that follows its equals sign. -/
structure Attribute where
  name : String
  raw : String
  deriving DecidableEq, Repr

/-- One item of a body. -/
inductive Item where
  /-- A name and its value. -/
  | attr (a : Attribute)
  /-- A block of a kind with labels, which are plain values, and items inside. -/
  | block (kind : String) (labels : List String) (body : List Item)
  /-- An empty line. -/
  | blank
  deriving Repr

/-- The items of a file or of a block, in order. -/
abbrev Body := List Item

namespace Item

/-- The attribute that an item is. -/
def asAttribute? : Item → Option Attribute
  | attr a => some a
  | _ => none

/-- The item is a block. -/
def isBlock : Item → Bool
  | block .. => true
  | _ => false

/-- The item is the attribute of a name. -/
def isNamed (name : String) : Item → Bool
  | attr a => a.name == name
  | _ => false

end Item

namespace Body

/-- The attributes of a body, in order. -/
def attributes (b : Body) : List Attribute :=
  b.filterMap Item.asAttribute?

/-- The blocks of a body, in order. -/
def blocks (b : Body) : List Item :=
  b.filter Item.isBlock

/-- The first attribute of a name. -/
def attribute? (b : Body) (name : String) : Option Attribute :=
  b.attributes.find? fun a => a.name == name

/-- The body with the attribute of a name set: replaced where it stands, or added at the end. -/
def set (b : Body) (name raw : String) : Body :=
  match b with
  | [] => [.attr ⟨name, raw⟩]
  | i :: is =>
    if i.isNamed name then .attr ⟨name, raw⟩ :: is else i :: set is name raw

/-- The body with a block added at the end. -/
def appendBlock (b : Body) (kind : String) (labels : List String) (inner : Body) : Body :=
  b ++ [.block kind labels inner]

/-- The body with an empty line added at the end. -/
def appendBlank (b : Body) : Body :=
  b ++ [.blank]

/-- The blocks of two bodies put together are those of the first and then those of the second. -/
theorem blocks_append (b c : Body) : blocks (b ++ c) = blocks b ++ blocks c := by
  simp [blocks]

/-- The attributes of two bodies put together are those of the first and then those of the second.
-/
theorem attributes_append (b c : Body) : attributes (b ++ c) = attributes b ++ attributes c := by
  simp [attributes]

/-- The attributes of a body are those among its items. -/
theorem mem_attributes_iff {b : Body} {a : Attribute} : a ∈ attributes b ↔ .attr a ∈ b := by
  rw [attributes, List.mem_filterMap]
  constructor
  · rintro ⟨i, hi, ha⟩
    cases i with
    | attr b =>
      cases ha
      exact hi
    | block kind labels body => cases ha
    | blank => cases ha
  · exact fun h => ⟨.attr a, h, rfl⟩

/-- An attribute that was set is found. -/
theorem attribute?_set_self (b : Body) (name raw : String) :
    attribute? (set b name raw) name = some ⟨name, raw⟩ := by
  induction b with
  | nil => simp [set, attribute?, attributes, Item.asAttribute?]
  | cons i is ih =>
    rw [set]
    split
    · simp [attribute?, attributes, Item.asAttribute?]
    · next h =>
      cases i with
      | attr a =>
        have hne : (a.name == name) = false := by simpa [Item.isNamed] using h
        have hcons : attributes (.attr a :: set is name raw) = a :: attributes (set is name raw) :=
          rfl
        rw [attribute?, hcons, List.find?_cons, hne]
        exact ih
      | block kind labels inner =>
        simpa [attribute?, attributes, Item.asAttribute?] using ih
      | blank => simpa [attribute?, attributes, Item.asAttribute?] using ih

end Body

end HclQuery.Tree
