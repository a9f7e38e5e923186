import HclQuery.Proofs.Configuration
import HclQuery.Proofs.Document.WellFormed
import HclQuery.Proofs.Grammar.Concrete

/-!
# Reading the text of a document

The text of a block is read as the steps of the block with its values as they are written, and the
steps are built to a tree that has the same blocks.  The induction is on the block, in front of any
other text and at any depth.

Main definitions:

- {lit}`Block.steps`: the steps that a block is read as.
- {lit}`Block.readItem`: the item that a block is read as.
- {lit}`Block.page`: the text of the blocks of a document.
- {lit}`Block.Uncut`: the type of a block does not begin with a newline.

Main results:

- Theorem {lit}`Block.steps_layout`: the text of a block is read as its steps.
- Theorem {lit}`Block.buildFrom_steps`: the steps of a block are built to its item.
- Theorem {lit}`Block.ofItem_readItem`: the item of a block becomes the block.
- Theorem {lit}`format_eq_page`: the canonical text of a document is its page.
- Theorem {lit}`parse_format`: the tree that the canonical text is read as.
- Theorem {lit}`toDocument_fromDocument`: the document that the canonical bytes are read as.
-/

namespace HclQuery

open Text Layout HclQuery.Tree

open Grammar (Step IsName IsExpression BeginsItem)

/-! ## Steps -/

/-- The steps that attributes are read as. -/
def Attributes.steps (m : Attributes) : List Step :=
  m.entries.map fun e => .set e.1.toList e.2.toList

namespace Block

mutual

/-- The steps that a block is read as. -/
def steps : Block → List Step
  | mk kind labels m bs => .enter kind.toList labels :: (m.steps ++ (stepsList bs ++ [.leave]))

/-- The steps that blocks are read as. -/
def stepsList : List Block → List Step
  | [] => []
  | b :: bs => b.steps ++ stepsList bs

end

end Block

/-- The text of attributes is read as their steps. -/
theorem Attributes.steps_layout {m : Attributes} {depth : Nat} {rest : List Char}
    (hnames : ∀ n ∈ m.names, IsName n.toList)
    (hvalues : ∀ v ∈ (m.reindented depth).values, IsExpression v.toList)
    (hrest : BeginsItem rest) (level : Nat) :
    Grammar.steps level (m.layout depth ++ rest) =
      (Grammar.steps level rest).map ((m.reindented depth).steps ++ ·) := by
  rcases assemble_attributes depth m.toAttributes with ⟨ps, hps, htext⟩
  have hmem : ∀ p ∈ ps, ∃ e ∈ m.entries, p.2 = ⟨e.1, String.ofList (' ' :: e.2.toList)⟩ := by
    intro p hp
    have hattribute : p.2 ∈ m.toAttributes := hps ▸ List.mem_map_of_mem hp
    rcases List.mem_map.1 hattribute with ⟨e, he, hpe⟩
    exact ⟨e, he, hpe.symm⟩
  have hname : ∀ p ∈ ps, IsName p.2.name.toList := by
    intro p hp
    rcases hmem p hp with ⟨e, he, hpe⟩
    rw [hpe]
    exact hnames e.1 (List.mem_map_of_mem he)
  have hvalue : ∀ p ∈ ps, IsExpression (reindent depth p.2.raw.toList) := by
    intro p hp
    rcases hmem p hp with ⟨e, he, hpe⟩
    have hv := hvalues (String.ofList (reindent depth e.2.toList)) (by
      rw [values, reindented, mapValues, List.map_map]
      exact List.mem_map_of_mem (f := fun e : String × String =>
        String.ofList (reindent depth e.2.toList)) he)
    rw [String.toList_ofList] at hv
    rw [hpe, String.toList_ofList, reindent_space]
    exact hv
  have hsteps : (ps.map fun p => Step.set p.2.name.toList (reindent depth p.2.raw.toList)) =
      (m.reindented depth).steps := by
    calc ps.map (fun p => Step.set p.2.name.toList (reindent depth p.2.raw.toList))
        = (ps.map (·.2)).map fun a => Step.set a.name.toList (reindent depth a.raw.toList) := by
          rw [List.map_map]
          rfl
      _ = (m.reindented depth).steps := by
          rw [hps, toAttributes, steps, reindented, mapValues, List.map_map, List.map_map]
          apply List.map_congr_left
          intro e _
          simp only [Function.comp_apply, String.toList_ofList, reindent_space]
  rw [layout, htext, Grammar.steps_renderAttributes hname hvalue hrest level, hsteps]

/-- After the attributes of a block there is a block inside it or its footer. -/
theorem Block.beginsItem_layouts {bs : List Block}
    (hnames : ∀ n ∈ Block.namesList bs, IsName n.toList) (depth depth' : Nat)
    (rest : List Char) : BeginsItem (Block.layouts depth bs ++ (footer depth' ++ rest)) := by
  cases bs with
  | nil => exact Grammar.beginsItem_footer depth' rest
  | cons b bs =>
    rcases b with ⟨kind, labels, m, inner⟩
    rw [Block.layouts, Block.layout]
    simp only [List.append_assoc]
    apply Grammar.beginsItem_header
    apply hnames
    rw [Block.namesList, Block.names]
    exact List.mem_cons_self ..

mutual

/-- The text of a block is read as its steps. -/
theorem Block.steps_layout : (b : Block) → ∀ (depth level : Nat) (rest : List Char),
    (∀ n ∈ b.names, IsName n.toList) →
    (∀ v ∈ (b.reindented depth).values, IsExpression v.toList) →
      Grammar.steps level (b.layout depth ++ rest) =
        (Grammar.steps level rest).map ((b.reindented depth).steps ++ ·)
  | .mk kind labels m bs => by
    intro depth level rest hnames hvalues
    rw [Block.names] at hnames
    rw [Block.reindented, Block.values] at hvalues
    have hkind := hnames kind (List.mem_cons_self ..)
    have hattributes : ∀ n ∈ m.names, IsName n.toList :=
      fun n hn => hnames n (List.mem_cons_of_mem _ (List.mem_append_left _ hn))
    have hinner : ∀ n ∈ Block.namesList bs, IsName n.toList :=
      fun n hn => hnames n (List.mem_cons_of_mem _ (List.mem_append_right _ hn))
    rw [Block.layout]
    simp only [List.append_assoc]
    rw [Grammar.steps_header hkind,
      Attributes.steps_layout hattributes (fun v hv => hvalues v (List.mem_append_left _ hv))
        (Block.beginsItem_layouts hinner (depth + 1) depth rest),
      Block.steps_layouts bs (depth + 1) (level + 1) _ hinner
        (fun v hv => hvalues v (List.mem_append_right _ hv)),
      Grammar.steps_footer, Block.reindented, Block.steps]
    cases Grammar.steps level rest <;> simp [Except.map]

/-- The layouts of blocks are read step by step, and then what follows them. -/
theorem Block.steps_layouts : (bs : List Block) → ∀ (depth level : Nat) (rest : List Char),
    (∀ n ∈ Block.namesList bs, IsName n.toList) →
    (∀ v ∈ Block.valuesList (Block.reindentedList depth bs), IsExpression v.toList) →
      Grammar.steps level (Block.layouts depth bs ++ rest) =
        (Grammar.steps level rest).map (Block.stepsList (Block.reindentedList depth bs) ++ ·)
  | [] => by
    intro depth level rest _ _
    cases hsteps : Grammar.steps level rest <;>
      simp [Block.layouts, Block.reindentedList, Block.stepsList, hsteps, Except.map]
  | b :: bs => by
    intro depth level rest hnames hvalues
    rw [Block.namesList] at hnames
    rw [Block.reindentedList, Block.valuesList] at hvalues
    rw [Block.layouts, List.append_assoc,
      Block.steps_layout b depth level _ (fun n hn => hnames n (List.mem_append_left _ hn))
        (fun v hv => hvalues v (List.mem_append_left _ hv)),
      Block.steps_layouts bs depth level rest
        (fun n hn => hnames n (List.mem_append_right _ hn))
        (fun v hv => hvalues v (List.mem_append_right _ hv)),
      Block.reindentedList, Block.stepsList]
    cases Grammar.steps level rest <;> simp [Except.map]

end

/-! ## The tree of the steps -/

/-- The items that attributes are read as. -/
def Attributes.readItems (m : Attributes) : List Item :=
  m.entries.map fun e => .attr ⟨e.1, e.2⟩

namespace Block

mutual

/-- The item that a block is read as. -/
def readItem : Block → Item
  | mk kind labels m bs => .block kind labels (m.readItems ++ readItems bs)

/-- The items that blocks are read as. -/
def readItems : List Block → List Item
  | [] => []
  | b :: bs => b.readItem :: readItems bs

end

end Block

/-- The steps of attributes add an item for each of them. -/
theorem Attributes.buildFrom_steps (m : Attributes) (opened : List Grammar.Opened)
    (items : List Item) (xs : List Step) :
    Grammar.buildFrom opened items (m.steps ++ xs) =
      Grammar.buildFrom opened (m.readItems.reverse ++ items) xs := by
  rw [steps, readItems]
  induction m.entries generalizing items with
  | nil => rfl
  | cons e es ih =>
    rw [List.map_cons, List.cons_append, Grammar.buildFrom, ih, String.ofList_toList,
      String.ofList_toList, List.map_cons, List.reverse_cons, List.append_assoc]
    rfl

mutual

/-- The steps of a block are built to its item. -/
theorem Block.buildFrom_steps : (b : Block) → ∀ (opened : List Grammar.Opened)
    (items : List Item) (xs : List Step),
    Grammar.buildFrom opened items (b.steps ++ xs) =
      Grammar.buildFrom opened (b.readItem :: items) xs
  | .mk kind labels m bs => by
    intro opened items xs
    rw [Block.steps, List.cons_append, Grammar.buildFrom, List.append_assoc,
      Attributes.buildFrom_steps, List.append_assoc, Block.buildFrom_stepsList bs,
      List.cons_append, Grammar.buildFrom, Block.readItem, String.ofList_toList]
    simp

/-- The steps of blocks add an item for each of them. -/
theorem Block.buildFrom_stepsList : (bs : List Block) → ∀ (opened : List Grammar.Opened)
    (items : List Item) (xs : List Step),
    Grammar.buildFrom opened items (Block.stepsList bs ++ xs) =
      Grammar.buildFrom opened ((Block.readItems bs).reverse ++ items) xs
  | [] => by
    intro opened items xs
    rfl
  | b :: bs => by
    intro opened items xs
    rw [Block.stepsList, List.append_assoc, Block.buildFrom_steps b,
      Block.buildFrom_stepsList bs, Block.readItems, List.reverse_cons, List.append_assoc]
    rfl

end

/-! ## The blocks of the tree -/

/-- Items that are blocks are no attributes, as they are read. -/
theorem Block.attributes_readItems (bs : List Block) :
    Body.attributes (Block.readItems bs) = [] := by
  induction bs with
  | nil => rfl
  | cons b bs ih =>
    rcases b with ⟨kind, labels, m, inner⟩
    rw [Block.readItems, Block.readItem]
    exact ih

/-- Items that are attributes are no blocks of a document, as they are read. -/
theorem Attributes.ofItems_readItems (m : Attributes) (b : Body) :
    Block.ofItems (m.readItems ++ b) = Block.ofItems b := by
  rw [readItems]
  induction m.entries with
  | nil => rfl
  | cons e es ih => exact ih

/-- The attributes are those that were written when all values are expressions. -/
theorem Attributes.ofBody_readItems {m : Attributes} {b : Body}
    (hvalues : ∀ v ∈ m.values, IsExpression v.toList) (hb : Body.attributes b = []) :
    Attributes.ofBody (m.readItems ++ b) = m := by
  have hattributes : Body.attributes m.readItems = m.entries.map fun e => ⟨e.1, e.2⟩ := by
    rw [readItems, Body.attributes, List.filterMap_map]
    exact congrFun List.filterMap_eq_map m.entries
  have hentry : ∀ e ∈ m.entries, (e.1, String.ofList (trimStart e.2.toList)) = e := by
    intro e he
    have htrimmed := (hvalues e.2 (List.mem_map_of_mem he)).trimmed
    rw [htrimmed.begins.trimStart_eq, String.ofList_toList]
  rw [ofBody, Body.attributes_append, hattributes, hb, List.append_nil, List.map_map]
  have hentries := (List.map_congr_left hentry).trans (List.map_id m.entries)
  exact (congrArg ofList hentries).trans m.ofList_entries

mutual

/-- The item of a block becomes the block. -/
theorem Block.ofItem_readItem : (b : Block) → (∀ v ∈ b.values, IsExpression v.toList) →
    Block.ofItem b.readItem = some b
  | .mk kind labels m bs => by
    intro hvalues
    rw [Block.values] at hvalues
    rw [Block.readItem, Block.ofItem, Attributes.ofItems_readItems,
      Attributes.ofBody_readItems (fun v hv => hvalues v (List.mem_append_left _ hv))
        (Block.attributes_readItems bs),
      Block.ofItems_readItems bs fun v hv => hvalues v (List.mem_append_right _ hv)]

/-- The blocks are those that were written when all values are expressions. -/
theorem Block.ofItems_readItems : (bs : List Block) →
    (∀ v ∈ Block.valuesList bs, IsExpression v.toList) → Block.ofItems (Block.readItems bs) = bs
  | [] => by
    intro _
    rfl
  | b :: bs => by
    intro hvalues
    rw [Block.valuesList] at hvalues
    rw [Block.readItems, Block.ofItems,
      Block.ofItem_readItem b fun v hv => hvalues v (List.mem_append_left _ hv),
      Block.ofItems_readItems bs fun v hv => hvalues v (List.mem_append_right _ hv)]

end

/-! ## The page -/

/-- The text of the blocks of a document, with an empty line between them. -/
def Block.page : List Block → List Char
  | [] => []
  | [b] => b.layout 0
  | b :: b' :: bs => b.layout 0 ++ '\n' :: Block.page (b' :: bs)

/-- Between two blocks of a page stands an empty line. -/
theorem Block.page_cons_cons (b b' : Block) (bs : List Block) :
    Block.page (b :: b' :: bs) = b.layout 0 ++ '\n' :: Block.page (b' :: bs) := rfl

/-- Newlines are cut at the end of a text that has none at its ends. -/
theorem trimNewlines_append {w : List Char} (hfront : w.head? ≠ some '\n')
    (hback : w.getLast? ≠ some '\n') (n : Nat) :
    trimNewlines (w ++ List.replicate n '\n') = w := by
  have hdrop : ∀ u : List Char, u.head? ≠ some '\n' → u.dropWhile (· == '\n') = u := by
    intro u hu
    cases u with
    | nil => rfl
    | cons c u => exact List.dropWhile_cons_of_neg (by simpa using hu)
  have hnewlines : ∀ c ∈ List.replicate n '\n', (c == '\n') = true := by
    intro c hc
    rw [List.eq_of_mem_replicate hc]
    rfl
  cases w with
  | nil =>
    rw [trimNewlines, List.nil_append, ← List.append_nil (List.replicate n '\n'),
      List.dropWhile_append_of_pos hnewlines]
    rfl
  | cons c w =>
    rw [trimNewlines, hdrop (c :: w ++ List.replicate n '\n') hfront, List.reverse_append,
      List.reverse_replicate, List.dropWhile_append_of_pos hnewlines,
      hdrop _ (by rw [List.head?_reverse]; exact hback), List.reverse_reverse]

/-- The text of a block begins with its type and ends with a brace on its line. -/
theorem Block.exists_layout (b : Block) :
    ∃ w, b.layout 0 = b.kind.toList ++ ' ' :: (w ++ ['}', '\n']) := by
  rcases b with ⟨kind, labels, m, bs⟩
  cases labels with
  | nil =>
    refine ⟨'{' :: '\n' :: (m.layout 1 ++ Block.layouts 1 bs), ?_⟩
    simp [Block.layout, Block.kind, header, footer, indent]
  | cons l labels =>
    refine ⟨(Label.quote l).toList ++ (labels.flatMap (fun l => ' ' :: (Label.quote l).toList) ++
      ' ' :: '{' :: '\n' :: (m.layout 1 ++ Block.layouts 1 bs)), ?_⟩
    simp [Block.layout, Block.kind, header, footer, indent]

/-- The page of a document with blocks begins with the type of the first one and ends with a brace
on its line. -/
theorem Block.exists_page_cons (b : Block) (bs : List Block) :
    ∃ w, Block.page (b :: bs) = b.kind.toList ++ ' ' :: (w ++ ['}', '\n']) := by
  induction bs generalizing b with
  | nil => exact b.exists_layout
  | cons b' bs ih =>
    rcases b.exists_layout with ⟨w, hw⟩
    rcases ih b' with ⟨w', hw'⟩
    refine ⟨w ++ '}' :: '\n' :: '\n' :: (b'.kind.toList ++ ' ' :: w'), ?_⟩
    rw [Block.page_cons_cons, hw, hw']
    simp

/-- The page of a document whose names are identifiers begins with one. -/
theorem Block.exists_page {bs : List Block} (hne : bs ≠ [])
    (hnames : ∀ n ∈ Block.namesList bs, IsName n.toList) :
    ∃ c w, Grammar.isNameStart c = true ∧ Block.page bs = c :: w := by
  rcases List.exists_cons_of_ne_nil hne with ⟨⟨kind, labels, m, inner⟩, bs, rfl⟩
  rcases Block.exists_page_cons ⟨kind, labels, m, inner⟩ bs with ⟨w, hw⟩
  rw [Block.namesList, Block.names] at hnames
  rcases (hnames kind (List.mem_cons_self ..)).front with ⟨c, u, hkind, hc⟩
  refine ⟨c, u ++ ' ' :: (w ++ ['}', '\n']), hc, ?_⟩
  rw [hw, Block.kind, hkind]
  rfl

/-- A page with a newline after it is each block with a newline after it. -/
theorem Block.flatMap_layout_eq_page {bs : List Block} (hne : bs ≠ []) :
    (bs.flatMap fun b => b.layout 0 ++ ['\n']) = Block.page bs ++ ['\n'] := by
  induction bs with
  | nil => exact absurd rfl hne
  | cons b bs ih =>
    cases bs with
    | nil => rw [List.flatMap_cons, List.flatMap_nil, List.append_nil, Block.page]
    | cons b' bs =>
      rw [List.flatMap_cons, ih (by simp), Block.page_cons_cons]
      simp

/-- The type of a block does not begin with a newline, which would be cut at the front of a page. -/
def Block.Uncut (b : Block) : Prop :=
  b.kind.toList.head? ≠ some '\n'

instance (b : Block) : Decidable b.Uncut :=
  inferInstanceAs (Decidable (b.kind.toList.head? ≠ some '\n'))

/-- The first of the blocks, if there is one, does not begin with a newline. -/
def Block.FrontUncut (bs : List Block) : Prop :=
  ∀ b, bs.head? = some b → b.Uncut

/-- Nothing but the last newline is cut from a page, unless its first type begins with one. -/
theorem format_eq_page {d : Document} (h : Block.FrontUncut d.blocks) :
    format d.toTree = Block.page d.blocks := by
  cases hblocks : d.blocks with
  | nil =>
    rw [Document.toTree, hblocks]
    rfl
  | cons b bs =>
    rcases Block.exists_page_cons b bs with ⟨w, hpage⟩
    have hfront : b.kind.toList.head? ≠ some '\n' := h b (by rw [hblocks]; rfl)
    have hbody : renderBody 0 d.toTree =
        (b.kind.toList ++ ' ' :: (w ++ ['}'])) ++ List.replicate 2 '\n' := by
      rw [renderBody_toTree, hblocks, Block.flatMap_layout_eq_page (List.cons_ne_nil b bs), hpage]
      simp
    have htrim : trimNewlines (renderBody 0 d.toTree) = b.kind.toList ++ ' ' :: (w ++ ['}']) := by
      rw [hbody]
      refine trimNewlines_append ?_ ?_ 2
      · cases hkind : b.kind.toList with
        | nil => simp
        | cons c u => simpa [hkind] using hfront
      · simp [List.getLast?_append, List.getLast?_cons]
    rw [format, htrim, hpage]
    simp

/-- A block whose kind is a name does not begin with a newline. -/
theorem Block.frontUncut_of_names {bs : List Block}
    (hnames : ∀ n ∈ Block.namesList bs, IsName n.toList) : Block.FrontUncut bs := by
  intro b hb
  rcases List.head?_eq_some_iff.1 hb with ⟨bs, rfl⟩
  rcases b with ⟨kind, labels, m, inner⟩
  rw [Block.namesList, Block.names] at hnames
  rcases (hnames kind (List.mem_cons_self ..)).front with ⟨c, u, hkind, hc⟩
  rw [Block.Uncut, Block.kind, hkind]
  rintro heq
  cases heq
  have hnot : Grammar.isNameStart '\n' = false := by decide
  rw [hnot] at hc
  cases hc

/-- The canonical text of a document whose names are identifiers. -/
theorem format_toTree {d : Document} (hnames : ∀ n ∈ d.names, IsName n.toList) :
    format d.toTree = Block.page d.blocks :=
  format_eq_page (Block.frontUncut_of_names hnames)

/-- The page is read as the steps of its blocks. -/
theorem Block.steps_page {bs : List Block} (hnames : ∀ n ∈ Block.namesList bs, IsName n.toList)
    (hvalues : ∀ v ∈ Block.valuesList (Block.reindentedList 0 bs), IsExpression v.toList) :
    Grammar.steps 0 (Block.page bs) = .ok (Block.stepsList (Block.reindentedList 0 bs)) := by
  have hend : Grammar.steps 0 [] = .ok [] := Grammar.steps_of_end rfl
  induction bs with
  | nil => exact hend
  | cons b bs ih =>
    rw [Block.namesList] at hnames
    rw [Block.reindentedList, Block.valuesList] at hvalues
    have hblock := fun rest => Block.steps_layout b 0 0 rest
      (fun n hn => hnames n (List.mem_append_left _ hn))
      (fun v hv => hvalues v (List.mem_append_left _ hv))
    cases bs with
    | nil =>
      have hlast := hblock []
      rw [List.append_nil, hend] at hlast
      exact hlast
    | cons b' bs =>
      rw [Block.page_cons_cons, hblock, Grammar.steps_newline,
        ih (fun n hn => hnames n (List.mem_append_right _ hn))
          (fun v hv => hvalues v (List.mem_append_right _ hv))]
      rfl

/-- The tree that the canonical text is read as. -/
theorem parse_format {d : Document} (hnames : ∀ n ∈ d.names, IsName n.toList)
    (hvalues : ∀ v ∈ d.reindented.values, IsExpression v.toList) :
    Grammar.parse (format d.toTree) = .ok (Block.readItems d.reindented.blocks) := by
  have hsteps := Block.steps_page hnames hvalues
  have hbuild : Grammar.build (Block.stepsList d.reindented.blocks) =
      Block.readItems d.reindented.blocks := by
    have hfrom := Block.buildFrom_stepsList d.reindented.blocks [] [] []
    rw [List.append_nil, List.append_nil, Grammar.buildFrom, List.reverse_reverse] at hfrom
    exact hfrom
  have hparse : Grammar.parse (Block.page d.blocks) =
      (Grammar.steps 0 (Block.page d.blocks)).map Grammar.build := by
    by_cases hne : d.blocks = []
    · rw [hne]
      exact Grammar.parse_of_not_brace (by decide)
    · rcases Block.exists_page hne hnames with ⟨c, w, hc, hpage⟩
      have hmark : c ≠ '\ufeff' := by
        rintro rfl
        have hnot : Grammar.isNameStart '\ufeff' = false := by decide +kernel
        rw [hnot] at hc
        cases hc
      have hbrace : c ≠ '{' := by
        rintro rfl
        have hnot : Grammar.isNameStart '{' = false := by decide
        rw [hnot] at hc
        cases hc
      have hdrop : Grammar.dropMark (c :: w) = c :: w := by rw [Grammar.dropMark, if_neg hmark]
      have hfirst : (Grammar.skipTrivia (c :: w)).head? ≠ some '{' := by
        rw [Grammar.skipTrivia_name hc, List.head?_cons, Ne, Option.some.injEq]
        exact hbrace
      rw [hpage, Grammar.parse_of_not_brace (by rwa [hdrop]), hdrop]
  rw [format_toTree hnames, hparse, hsteps]
  exact congrArg Except.ok hbuild

/-- The canonical bytes of a document are read as the document with its values as they are written,
if these are expressions. -/
theorem toDocument_fromDocument {d : Document} (hnames : ∀ n ∈ d.names, IsName n.toList)
    (hvalues : ∀ v ∈ d.reindented.values, IsExpression v.toList) :
    toDocument (fromDocument d) = .ok d.reindented := by
  have hblocks := Block.ofItems_readItems d.reindented.blocks hvalues
  rw [toDocument, parseTree_fromDocument, parse_format hnames hvalues]
  exact congrArg (fun bs => Except.ok (Document.mk bs)) hblocks

end HclQuery
