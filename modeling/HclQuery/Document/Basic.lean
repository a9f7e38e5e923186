import HclQuery.Document.Attributes

/-!
# Documents

A document is what a filter program sees of a configuration: blocks with a type, labels, attributes
and blocks inside.  Values are expression text and are never evaluated.

Main results:

- Theorem {lit}`depth_append`: how deep blocks nest when two lists of them are joined.
-/

namespace HclQuery

/-- A block with the blocks inside it. -/
inductive Block where
  | mk (kind : String) (labels : List String) (attributes : Attributes) (blocks : List Block)
  deriving Repr

namespace Block

/-- The type of a block. -/
def kind : Block → String
  | mk k _ _ _ => k

/-- The labels of a block. -/
def labels : Block → List String
  | mk _ l _ _ => l

/-- The attributes of a block. -/
def attributes : Block → Attributes
  | mk _ _ a _ => a

/-- The blocks inside a block. -/
def blocks : Block → List Block
  | mk _ _ _ b => b

instance : Inhabited Block := ⟨mk "" [] .empty []⟩

mutual

/-- Blocks are equal if their parts are. -/
def decEq : (a b : Block) → Decidable (a = b)
  | mk k l m bs, mk k' l' m' bs' =>
    if h : k = k' ∧ l = l' ∧ m = m' then
      match decEqList bs bs' with
      | isTrue hb => isTrue (by rw [h.1, h.2.1, h.2.2, hb])
      | isFalse hb => isFalse fun e => hb (by injection e)
    else isFalse fun e => h (by injection e with hk hl hm; exact ⟨hk, hl, hm⟩)

/-- Lists of blocks are equal if their members are. -/
def decEqList : (a b : List Block) → Decidable (a = b)
  | [], [] => isTrue rfl
  | [], _ :: _ => isFalse fun e => by cases e
  | _ :: _, [] => isFalse fun e => by cases e
  | a :: as, b :: bs =>
    match decEq a b, decEqList as bs with
    | isTrue h, isTrue hs => isTrue (by rw [h, hs])
    | isFalse h, _ => isFalse fun e => h (by injection e)
    | _, isFalse h => isFalse fun e => h (by injection e)

end

instance : DecidableEq Block := decEq

mutual

/-- How many levels of blocks a block spans. -/
def depth : Block → Nat
  | mk _ _ _ bs => depthList bs + 1

/-- How many levels of blocks a list of blocks spans. -/
def depthList : List Block → Nat
  | [] => 0
  | b :: bs => max b.depth (depthList bs)

end

/-- Two lists of blocks are as deep as the deeper one. -/
theorem depthList_append (as bs : List Block) :
    depthList (as ++ bs) = max (depthList as) (depthList bs) := by
  induction as with
  | nil => simp [depthList]
  | cons a as ih => simp [depthList, ih, Nat.max_assoc]

end Block

/-- The blocks of a whole configuration, in order. -/
structure Document where
  blocks : List Block
  deriving DecidableEq, Repr

namespace Document

/-- The document without blocks. -/
def empty : Document := ⟨[]⟩

instance : Inhabited Document := ⟨empty⟩

/-- A document without blocks is empty. -/
def isEmpty (d : Document) : Bool :=
  d.blocks.isEmpty

/-- How many levels of blocks a document spans. -/
def depth (d : Document) : Nat :=
  Block.depthList d.blocks

/-- How deep blocks nest when two lists of them are joined. -/
theorem depth_append (as bs : List Block) :
    (Document.mk (as ++ bs)).depth = max (Document.mk as).depth (Document.mk bs).depth :=
  Block.depthList_append as bs

end Document

end HclQuery
