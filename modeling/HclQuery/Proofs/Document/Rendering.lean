import HclQuery.Document.Conversion

/-!
# The text of a document, block by block

The canonical text of a document consists of the texts of its blocks, and that of a block of its
header, its attributes, the blocks inside it and its footer.  Only the attributes of one block are
laid out together.

Main definitions:

- {lit}`Attributes.layout`, {lit}`Block.layout`: the text of attributes and of a block at a depth.

Main results:

- Theorem {lit}`renderBody_toTree`: the text of a document before the newlines around it are cut.
- Theorem {lit}`Document.render_eq_empty_iff`: just the document without blocks has no text.
-/

namespace HclQuery

open Text Layout HclQuery.Tree

/-- The attributes as the syntax tree has them, each value after one space. -/
def Attributes.toAttributes (m : Attributes) : List Attribute :=
  m.entries.map fun e => ⟨e.1, String.ofList (' ' :: e.2.toList)⟩

/-- The text of attributes at a depth. -/
def Attributes.layout (depth : Nat) (m : Attributes) : List Char :=
  assemble depth (m.toAttributes.map Entry.attr)

namespace Block

mutual

/-- The text of a block at a depth. -/
def layout (depth : Nat) : Block → List Char
  | mk kind labels attributes bs =>
    header depth kind labels ++ (attributes.layout (depth + 1) ++ layouts (depth + 1) bs) ++
      footer depth

/-- The texts of blocks one after the other. -/
def layouts (depth : Nat) : List Block → List Char
  | [] => []
  | b :: bs => b.layout depth ++ layouts depth bs

end

end Block

/-! ## Entries one after the other -/

namespace Layout

/-- Runs that begin with attributes that others may join. -/
def BeginsAligned (rs : List Run) : Prop :=
  ∃ as rest, rs = .aligned as :: rest

/-- An entry only joins the run right after it. -/
theorem Run.cons_append (e : Entry) (rs : List Run) {rs' : List Run} (h : ¬BeginsAligned rs') :
    Run.cons e (rs ++ rs') = Run.cons e rs ++ rs' := by
  cases e with
  | text t => rfl
  | attr a =>
    by_cases hmulti : isMultiline a.raw
    · simp [Run.cons, hmulti]
    · cases rs with
      | cons r rs => cases r <;> simp [Run.cons, hmulti]
      | nil =>
        cases rs' with
        | nil => rw [List.append_nil, List.append_nil]
        | cons r rs' =>
          cases r with
          | aligned as => exact absurd ⟨as, rs', rfl⟩ h
          | alone b => simp [Run.cons, hmulti]
          | text t => simp [Run.cons, hmulti]

/-- What comes after entries is laid out by itself, unless it begins with attributes. -/
theorem runs_append (es : List Entry) {es' : List Entry} (h : ¬BeginsAligned (runs es')) :
    runs (es ++ es') = runs es ++ runs es' := by
  induction es with
  | nil => rfl
  | cons e es ih =>
    calc runs (e :: es ++ es') = Run.cons e (runs (es ++ es')) := rfl
      _ = Run.cons e (runs es ++ runs es') := by rw [ih]
      _ = Run.cons e (runs es) ++ runs es' := Run.cons_append e (runs es) h

/-- Entries that are texts are runs of their own. -/
theorem runs_texts (ts : List (List Char)) : runs (ts.map Entry.text) = ts.map Run.text := by
  induction ts with
  | nil => rfl
  | cons t ts ih =>
    rw [List.map_cons, List.map_cons, ← ih]
    rfl

/-- No run of a text is padded. -/
theorem not_beginsAligned_texts (ts : List (List Char)) :
    ¬BeginsAligned (runs (ts.map Entry.text)) := by
  rintro ⟨as, rest, h⟩
  rw [runs_texts] at h
  cases ts with
  | nil => simp at h
  | cons t ts => simp at h

/-- Texts are put together as they are. -/
theorem assemble_texts (depth : Nat) (ts : List (List Char)) :
    assemble depth (ts.map Entry.text) = ts.flatten := by
  rw [assemble, runs_texts, List.flatMap_map]
  exact List.flatMap_id'

/-- Texts at the end of a body are put there as they are. -/
theorem assemble_append_texts (depth : Nat) (es : List Entry) (ts : List (List Char)) :
    assemble depth (es ++ ts.map Entry.text) = assemble depth es ++ ts.flatten := by
  rw [← assemble_texts depth ts, assemble, runs_append es (not_beginsAligned_texts ts),
    List.flatMap_append]
  rfl

/-- The entries of two bodies put together are those of the first and then those of the second. -/
theorem entries_append (depth : Nat) (b c : Body) :
    entries depth (b ++ c) = entries depth b ++ entries depth c := by
  induction b with
  | nil => rfl
  | cons i b ih => rw [List.cons_append, entries, entries, ih, List.cons_append]

end Layout

/-! ## Blocks -/

/-- The entries of written attributes are the attributes. -/
theorem Attributes.entries_toItems (depth : Nat) (m : Attributes) :
    Layout.entries depth m.toItems = m.toAttributes.map Entry.attr := by
  rw [Attributes.toItems, Attributes.toAttributes]
  induction m.entries with
  | nil => rfl
  | cons e es ih =>
    rw [List.map_cons, List.map_cons, List.map_cons, Layout.entries, ih]
    rfl

/-- The layouts of blocks follow each other. -/
theorem Block.layouts_eq_flatten (depth : Nat) (bs : List Block) :
    Block.layouts depth bs = (bs.map (Block.layout depth)).flatten := by
  induction bs with
  | nil => rfl
  | cons b bs ih => rw [Block.layouts, ih, List.map_cons, List.flatten_cons]

mutual

/-- The item of a block is rendered as the text of the block. -/
theorem Block.entry_toItem : (b : Block) → ∀ depth : Nat,
    entry depth b.toItem = .text (b.layout depth)
  | .mk kind labels m bs => by
    intro depth
    rw [Block.toItem, entry, entries_append, Attributes.entries_toItems, Block.entries_toItems bs,
      assemble_append_texts, ← Block.layouts_eq_flatten, Block.layout, Attributes.layout]

/-- The entries of written blocks are their layouts. -/
theorem Block.entries_toItems : (bs : List Block) → ∀ depth : Nat,
    Layout.entries depth (Block.toItems bs) = (bs.map (Block.layout depth)).map Entry.text
  | [] => by
    intro depth
    rfl
  | b :: bs => by
    intro depth
    rw [Block.toItems, Layout.entries, Block.entry_toItem b, Block.entries_toItems bs]
    rfl

end

/-! ## Documents -/

/-- The text of a document before the newlines around it are cut. -/
theorem renderBody_toTree (d : Document) :
    renderBody 0 d.toTree = d.blocks.flatMap fun b => b.layout 0 ++ ['\n'] := by
  have hentries : ∀ bs : List Block,
      Layout.entries 0 (bs.flatMap fun b => [b.toItem, .blank]) =
        (bs.flatMap fun b => [b.layout 0, ['\n']]).map Entry.text := by
    intro bs
    induction bs with
    | nil => rfl
    | cons b bs ih =>
      rw [List.flatMap_cons, List.flatMap_cons, entries_append, ih, List.map_append,
        Layout.entries, Block.entry_toItem, Layout.entries, entry, Layout.entries]
      rfl
  rw [renderBody, Document.toTree, hentries, assemble_texts]
  induction d.blocks with
  | nil => rfl
  | cons b bs ih =>
    rw [List.flatMap_cons, List.flatten_append, ih, List.flatMap_cons]
    simp

/-- Trimming newlines from the ends of a text takes no other character away. -/
theorem mem_trimNewlines {c : Char} {t : List Char} (h : c ∈ t) (hc : c ≠ '\n') :
    c ∈ trimNewlines t := by
  have hdrop : ∀ u : List Char, c ∈ u → c ∈ u.dropWhile (· == '\n') := by
    intro u hu
    rw [← List.takeWhile_append_dropWhile (p := (· == '\n')) (l := u)] at hu
    rcases List.mem_append.1 hu with htake | hdrop
    · have hall := List.all_eq_true.1 List.all_takeWhile c htake
      exact absurd (by simpa using hall) hc
    · exact hdrop
  rw [trimNewlines, List.mem_reverse]
  exact hdrop _ (List.mem_reverse.2 (hdrop t h))

/-- Just the document without blocks has no text. -/
theorem Document.render_eq_empty_iff (d : Document) : d.render = "" ↔ d.blocks = [] := by
  constructor
  · intro h
    cases hblocks : d.blocks with
    | nil => rfl
    | cons b bs =>
      have hbrace : '}' ∈ renderBody 0 d.toTree := by
        rcases b with ⟨kind, labels, m, inner⟩
        rw [renderBody_toTree, hblocks, List.flatMap_cons, Block.layout, footer]
        simp
      have htrim := mem_trimNewlines hbrace (by decide)
      rw [Document.render, format] at h
      have hnil := String.ofList_eq_empty_iff.1 h
      by_cases hempty : (trimNewlines (renderBody 0 d.toTree)).isEmpty = true
      · rw [List.isEmpty_iff.1 hempty] at htrim
        cases htrim
      · simp [hempty] at hnil
  · intro h
    rw [Document.render, Document.toTree, h]
    rfl

end HclQuery
