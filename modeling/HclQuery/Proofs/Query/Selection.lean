import HclQuery.Proofs.Document.WireFormat
import HclQuery.Proofs.Query.Refinement

/-!
# Queries that select

What becomes of filter output that is no whole document.  The text of one block is a document all
the same: its body is read, and its own type, labels and attributes are members of other names,
which are skipped.  So is a list that fits the fields of a document by place.

Main results:

- Theorem {lit}`Query.execute_block`: a query that selects a block returns it unchanged just when no
  blocks are inside, or too many levels of them.
- Theorem {lit}`Query.convertBack_shape`: what is formatted is a document of the wire format.
-/

namespace HclQuery

open Json
open Text (Utf8.encode)

/-! ## A block that is read as a document -/

/-- A member of another name is skipped. -/
theorem soleMember_other {α : Type} {name key : String} (hkey : key ≠ name) (default : α)
    (value : Reader α) (before : Option α) {t : List Char} {v : Value} (h : Spelled t v)
    (spacing : Spacing) (rest : List UInt8) :
    soleMember name default value before key (Utf8.encode (spacing.colon ++ t) ++ rest) =
      .ok (before, rest) := by
  rcases skipSpace_colon spacing t rest with ⟨w, hw, hcolon⟩
  rw [soleMember, if_neg hkey]
  exact ignored_of_spells before hcolon (h w rest hw)

/-- The members of a block in front of its body are skipped in a record with the one field
`body`. -/
theorem soleMember_block (spacing : Spacing) (kind : String) (labels : List String)
    (m : Attributes) (value : Reader (List Block)) :
    ∀ member ∈ [("type", writeString kind),
      ("labels", writeList spacing.inner (labels.map writeString)),
      ("attributes", m.text spacing.inner)], ∀ rest,
      soleMember "body" [] value none member.1
        (Utf8.encode (spacing.colon ++ member.2) ++ rest) = .ok (none, rest) := by
  intro member hmember
  rcases List.mem_cons.1 hmember with rfl | hmember
  · exact soleMember_other (show "type" ≠ "body" by decide) _ _ _ (spelled_writeString kind) spacing
  rcases List.mem_cons.1 hmember with rfl | hmember
  · exact soleMember_other (show "labels" ≠ "body" by decide) _ _ _
      (spelled_labels spacing.inner labels) spacing
  · rw [List.mem_singleton.1 hmember]
    exact soleMember_other (show "attributes" ≠ "body" by decide) _ _ _
      (m.spelled_text spacing.inner) spacing

/-- The value of a block denotes the document of the blocks inside. -/
theorem Block.denotes_document (b : Block) : Denotes b.json (.document b.blocks) := by
  rcases b with ⟨kind, labels, m, bs⟩
  have hbody := denotes_bodyJson (Block.denotes_jsons bs)
  refine denotes_recordJson (by simp [Content.fields]) ?_
  exact List.forall_mem_singleton.2 ⟨_, rfl, hbody⟩

/-- The text of a block is refused if its body is. -/
theorem Block.refuses_body_text (spacing : Spacing) (b : Block) {value : Reader (List Block)}
    (h : Refuses value (bodyText spacing.inner b.blocks)) (expected : String) :
    Refuses (soleRecord expected "body" [] value) (b.text spacing) := by
  rcases b with ⟨kind, labels, m, bs⟩
  have hskip := soleMember_block spacing kind labels m value
  have hmembers : RefusesMembers (soleMember "body" [] value) spacing none
      [("type", writeString kind), ("labels", writeList spacing.inner (labels.map writeString)),
        ("attributes", m.text spacing.inner), ("body", bodyText spacing.inner bs)] := by
    refine .inr ⟨none, hskip _ (by simp), .inr ⟨none, hskip _ (by simp),
      .inr ⟨none, hskip _ (by simp), .inl ?_⟩⟩⟩
    intro rest
    exact field_none_refuses "body" spacing (h.orDefault [] (opens_writeObject _ _)) some rest
  exact refuses_record hmembers

namespace Query

/-! ## Queries that select a block -/

/-- Output that is decoded as a document without blocks is returned unchanged. -/
theorem convertBack_of_decode_nil {output : List UInt8} {d : Document}
    (h : Document.decode output = .ok d) (hblocks : d.blocks = []) (strict : Bool) :
    convertBack strict output = fallBack strict output .emptyRendering := by
  have hempty : (fromDocument d).isEmpty = true :=
    List.isEmpty_iff.2 ((fromDocument_eq_nil_iff d).2 hblocks)
  simp only [convertBack, h, hempty, if_true]

/-- Output that is not decoded is returned unchanged. -/
theorem convertBack_of_fault {output : List UInt8} {f : Fault}
    (h : Document.decode output = .error f) (strict : Bool) :
    convertBack strict output = fallBack strict output (.notADocument (f.message output)) := by
  simp only [convertBack, h]

/-- The text of a block is decoded as the document of the blocks inside. -/
theorem decode_block (spacing : Spacing) (b : Block) {before after : List UInt8}
    (hbefore : Blank before) (hafter : Blank after) (h : Block.depthList b.blocks ≤ maxDepth) :
    Document.decode (before ++ (Utf8.encode (b.text spacing) ++ after)) = .ok ⟨b.blocks⟩ :=
  Document.decode_of_denotes h b.denotes_document
    ((b.spelled_text spacing).isText hbefore hafter)

/-- A block with too many levels in it is not decoded. -/
theorem decode_block_of_deep (spacing : Spacing) (b : Block) {before : List UInt8}
    (hbefore : Blank before) (after : List UInt8) (h : maxDepth < Block.depthList b.blocks) :
    ∃ f, Document.decode (before ++ (Utf8.encode (b.text spacing) ++ after)) = .error f :=
  Document.decode_of_refuses (b.refuses_body_text spacing (refuses_body_of_depth spacing.inner h) _)
    hbefore after

/-- A query that selects a block returns it unchanged just when no blocks are inside, or too many
levels of them.  Otherwise it formats the blocks inside and nothing else of the block. -/
theorem execute_block {source : List UInt8} {d : Document} (hsource : toDocument source = .ok d)
    {filter : Filter} {expression : String} {b : Block} {spacing : Spacing}
    {before after : List UInt8} (hbefore : Blank before) (hafter : Blank after)
    {output : List UInt8}
    (houtput : output = before ++ (Utf8.encode (b.text spacing) ++ after))
    (hfilter : filter expression d.encode = .ok output) (strict : Bool) :
    ((∃ reason, execute filter strict expression source = fallBack strict output reason) ↔
        b.blocks = [] ∨ maxDepth < Block.depthList b.blocks) ∧
      (b.blocks ≠ [] → Block.depthList b.blocks ≤ maxDepth →
        execute filter strict expression source = .ok (.formatted (fromDocument ⟨b.blocks⟩))) := by
  have hexecute : execute filter strict expression source = convertBack strict output := by
    simp only [execute, hsource, hfilter]
  have hformatted : b.blocks ≠ [] → Block.depthList b.blocks ≤ maxDepth →
      convertBack strict output = .ok (.formatted (fromDocument ⟨b.blocks⟩)) := by
    intro hblocks hle
    rw [houtput]
    exact convertBack_of_decode (decode_block spacing b hbefore hafter hle) hblocks strict
  rw [hexecute]
  refine ⟨⟨?_, ?_⟩, hformatted⟩
  · rintro ⟨reason, hraw⟩
    by_contra hnot
    rw [not_or, Nat.not_lt] at hnot
    exact fallBack_ne_formatted strict output reason _
      (hraw.symm.trans (hformatted hnot.1 hnot.2))
  · intro h
    rw [houtput]
    rcases Nat.lt_or_ge maxDepth (Block.depthList b.blocks) with hlt | hle
    · rcases decode_block_of_deep spacing b hbefore after hlt with ⟨f, hf⟩
      exact ⟨_, convertBack_of_fault hf strict⟩
    · have hnil : b.blocks = [] := h.resolve_right (Nat.not_lt.2 hle)
      exact ⟨_, convertBack_of_decode_nil (decode_block spacing b hbefore hafter hle) hnil strict⟩

/-- The filter that gives one block and nothing else. -/
def giveBlock (b : Block) : Filter := fun _ _ => .ok (Utf8.encode (b.text .compact))

/-- A block with a block inside. -/
def outerBlock : Block :=
  .mk "a" [] .empty [.mk "b" [] .empty []]

/-- A configuration of a block with a block inside. -/
def outerSource : List UInt8 :=
  Utf8.encode ['a', '{', 'b', '{', '}', '}']

/-- The inner block is returned unchanged, and of the outer block the inner one is formatted. -/
theorem execute_block_outerSource :
    (∃ reason, execute (giveBlock (.mk "b" [] .empty [])) true "." outerSource =
        fallBack true (Utf8.encode ((Block.mk "b" [] .empty []).text .compact)) reason) ∧
      execute (giveBlock outerBlock) true "." outerSource =
        .ok (.formatted (fromDocument ⟨[.mk "b" [] .empty []]⟩)) := by
  have hsource : toDocument outerSource = .ok ⟨[outerBlock]⟩ := ok_of_toOption (by decide +kernel)
  have htext : ∀ b : Block, Utf8.encode (b.text .compact) =
      [] ++ (Utf8.encode (b.text .compact) ++ []) := fun b => (List.append_nil _).symm
  constructor
  · exact (execute_block hsource Blank.nil Blank.nil (htext _) rfl true).1.2 (.inl rfl)
  · exact (execute_block hsource Blank.nil Blank.nil (htext outerBlock) rfl true).2
      (List.cons_ne_nil _ _) (by decide)

/-- The outer block is not returned unchanged. -/
theorem execute_outerBlock_ne_fallBack :
    toDocument outerSource = .ok ⟨[outerBlock]⟩ ∧
      ¬∃ reason, execute (giveBlock outerBlock) false "." outerSource =
        fallBack false (Utf8.encode (outerBlock.text .compact)) reason := by
  have hsource : toDocument outerSource = .ok ⟨[outerBlock]⟩ := ok_of_toOption (by decide +kernel)
  have hdecode : Document.decode (Utf8.encode (outerBlock.text .compact)) =
      .ok ⟨outerBlock.blocks⟩ := by
    have h := decode_block .compact outerBlock Blank.nil Blank.nil (by decide)
    rwa [List.nil_append, List.append_nil] at h
  have hformatted := convertBack_of_decode hdecode (List.cons_ne_nil _ _) false
  refine ⟨hsource, ?_⟩
  rintro ⟨reason, hraw⟩
  simp only [execute, hsource, giveBlock] at hraw
  exact fallBack_ne_formatted _ _ _ _ (hraw.symm.trans hformatted)

/-! ## Output that is no document -/

/-- What is decoded is the text of one value, which has the shape of a document, without records by
place if there are none.  Output that is no such text is returned unchanged. -/
theorem convertBack_shape (strict : Bool) (output : List UInt8) :
    (∀ d, Document.decode output = .ok d →
      ∃ v, IsText v output ∧ (∀ v', IsText v' output → v' = v) ∧ Fits true .document v ∧
        (Fits false .document v ↔ ¬HasPlaces .document v)) ∧
      ((¬∃ v, IsText v output ∧ Fits true .document v) →
        ∃ message, convertBack strict output = fallBack strict output (.notADocument message)) := by
  constructor
  · intro d hdecode
    rcases Document.fits_of_decode hdecode with ⟨v, hv, hfits⟩
    exact ⟨v, hv, fun v' hv' => hv'.unique hv, hfits, hfits.strict_iff⟩
  · intro hnone
    cases hdecode : Document.decode output with
    | error f => exact ⟨_, convertBack_of_fault hdecode strict⟩
    | ok d => exact absurd (Document.fits_of_decode hdecode) hnone

/-- The document of one block is decoded, and its text has the shape of a document. -/
theorem convertBack_shape_outerBlock :
    Document.decode (Document.encode ⟨[outerBlock]⟩) = .ok ⟨[outerBlock]⟩ ∧
      ∃ v, IsText v (Document.encode ⟨[outerBlock]⟩) ∧ Fits true .document v := by
  have hdecode : Document.decode (Document.encode ⟨[outerBlock]⟩) = .ok ⟨[outerBlock]⟩ :=
    Document.decode_text .compact _ (by decide)
  rcases (convertBack_shape true _).1 _ hdecode with ⟨v, hv, -, hfits, -⟩
  exact ⟨hdecode, v, hv, hfits⟩

/-- The list of a list of a list with one name. -/
def nestedLists : List UInt8 :=
  Utf8.encode ['[', '[', '[', '[', '"', 'a', '"', ']', ']', ']', ']']

/-- A list with nothing but a name in it is formatted as a block. -/
theorem convertBack_nestedLists :
    Document.decode nestedLists = .ok ⟨[.mk "a" [] .empty []]⟩ ∧
      (¬∃ v, IsText v nestedLists ∧ Fits false .document v) ∧
      convertBack true nestedLists = .ok (.formatted (fromDocument ⟨[.mk "a" [] .empty []]⟩)) := by
  have hdecode : Document.decode nestedLists = .ok ⟨[.mk "a" [] .empty []]⟩ :=
    ok_of_toOption (by decide +kernel)
  refine ⟨hdecode, ?_, convertBack_of_decode hdecode (List.cons_ne_nil _ _) true⟩
  rintro ⟨v, ⟨r, hv, -⟩, hfits⟩
  have hfront : skipSpace nestedLists = Byte.openBracket :: nestedLists.tail := rfl
  cases hfits with
  | members hrole =>
    cases hv with
    | scalar h => cases h
    | object ht => cases (List.cons.inj (hfront.symm.trans ht)).1
  | places _ hplaces => cases hplaces

end Query

end HclQuery
