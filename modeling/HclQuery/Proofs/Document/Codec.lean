import HclQuery.Proofs.Document.Denotation

/-!
# Documents as JSON: encoding and decoding

A block takes three levels of lists and objects, and a document three more around them, so documents
of up to 41 levels of blocks are decoded from their own text, and deeper ones are refused.  Both
hold on one line and with one member to a line.

Main definitions:

- {lit}`maxDepth`: how many levels of blocks are decoded.
- {lit}`Document.DecodedFrom`: bytes are decoded as a document unless it is too deep.

Main results:

- Theorem {lit}`Block.reads_text`: a block is read from its own text if there are levels enough.
- Theorem {lit}`Block.refuses_text`: it is refused if there are not.
- Theorem {lit}`Document.decode_of_denotes`: what denotes a document is decoded as it.
- Theorem {lit}`Document.decode_text`: the document of its own text.
- Theorem {lit}`Document.decode_text_of_deep`: the text of a document that is too deep is refused.
- Theorem {lit}`Document.decode_encode_iff`: encoding and decoding give a document back just when it
  is not too deep.
-/

namespace HclQuery

open Json
open Text (Utf8.encode)

/-- How many levels of blocks a document may have and still be decoded. -/
def maxDepth : Nat := 41

/-! ## Fields -/

/-- Where brackets are refused, every text that begins like a value is refused. -/
theorem refuses_refuseBracket {α : Type} {expected : String} {isOpen : UInt8 → Bool}
    {t : List Char} (ht : Opens t) : Refuses (α := α) (refuseBracket expected isOpen) t := by
  intro w rest hw
  rcases ht.encode_eq with ⟨b, s, hb, hspace, -⟩
  rw [refuseBracket, skipSpace_append hw, hb, List.cons_append, skipSpace_cons hspace]
  by_cases hopen : isOpen b = true
  · exact ⟨⟨.tooDeep, s ++ rest⟩, if_pos hopen⟩
  · exact ⟨mismatch expected (b :: (s ++ rest)), if_neg hopen⟩

/-- A field that was not given before is stored. -/
theorem field_none {α σ : Type} (name : String) {value : Reader α} {t : List Char} {x : α}
    (spacing : Spacing) (h : Reads value t x) (store : α → σ) (rest : List UInt8) :
    field name none value store (Utf8.encode (spacing.colon ++ t) ++ rest) =
      .ok (store x, rest) := by
  simp only [field, h.memberValue spacing rest]

/-- A field whose value is refused is refused. -/
theorem field_none_refuses {α σ : Type} (name : String) {value : Reader α} {t : List Char}
    (spacing : Spacing) (h : Refuses value t) (store : α → σ) (rest : List UInt8) :
    ∃ f, field name none value store (Utf8.encode (spacing.colon ++ t) ++ rest) = .error f := by
  rcases h.memberValue spacing rest with ⟨f, hf⟩
  exact ⟨f, by simp only [field, hf]⟩

/-- A record is refused when its field is. -/
theorem refuses_soleRecord {α : Type} (expected name : String) (default : α) {value : Reader α}
    {t : List Char} (spacing : Spacing) (ht : Opens t) (h : Refuses value t) :
    Refuses (soleRecord expected name default value) (writeObject spacing [(name, t)]) := by
  have hmember : RefusesMembers (soleMember name default value) spacing none [(name, t)] := by
    refine .inl ?_
    intro rest
    simp only [soleMember, if_true]
    exact field_none_refuses name spacing (h.orDefault default ht) some rest
  exact refuses_record hmember

/-! ## Labels and attributes -/

theorem reads_labels (spacing : Spacing) (labels : List String) (n : Nat) :
    Reads (readLabels (n + 1)) (writeList spacing (labels.map writeString)) labels :=
  (spelled_labels spacing labels).reads ((denotes_labels labels).gives (Nat.le_add_left 1 n))

theorem reads_attributes (spacing : Spacing) (m : Attributes) (n : Nat) :
    Reads (Attributes.read (n + 1)) (m.text spacing) m :=
  (m.spelled_text spacing).reads (m.denotes_json.gives (Nat.le_add_left 1 n))

/-! ## Blocks -/

/-- The text of a block begins like a value. -/
theorem Block.opens_text (spacing : Spacing) (b : Block) : Opens (b.text spacing) := by
  cases b
  exact opens_writeObject spacing _

/-- The members of a block whose body is refused. -/
theorem refusesMembers_block (spacing : Spacing) (kind : String) (labels : List String)
    (m : Attributes) (n : Nat) (body : Reader (List Block)) {ms : List (String × List Char)}
    (h : RefusesMembers (blockMember (n + 1) body) spacing
      ⟨some kind, some labels, some m, none⟩ ms) :
    RefusesMembers (blockMember (n + 1) body) spacing .none
      (("type", writeString kind) ::
        ("labels", writeList spacing.inner (labels.map writeString)) ::
        ("attributes", m.text spacing.inner) :: ms) := by
  refine .inr ⟨⟨some kind, none, none, none⟩, ?_, .inr ⟨⟨some kind, some labels, none, none⟩, ?_,
    .inr ⟨⟨some kind, some labels, some m, none⟩, ?_, h⟩⟩⟩
  · intro rest
    exact field_none "type" spacing
      ((reads_stringValue kind).orDefault "" (opens_writeString kind)) _ rest
  · intro rest
    exact field_none "labels" spacing
      ((reads_labels spacing.inner labels n).orDefault [] (opens_writeList _ _)) _ rest
  · intro rest
    exact field_none "attributes" spacing
      ((reads_attributes spacing.inner m n).orDefault .empty (opens_writeObject _ _)) _ rest

/-- A body is refused when one of its blocks is and each of the others is read or refused. -/
theorem refuses_body (spacing : Spacing) {bs : List Block} {n : Nat}
    (h : ∀ b ∈ bs, Reads (readBlock n) (b.text spacing.inner.inner) b ∨
      Refuses (readBlock n) (b.text spacing.inner.inner))
    (hbad : ∃ b ∈ bs, Refuses (readBlock n) (b.text spacing.inner.inner)) :
    Refuses (readBody (n + 2)) (bodyText spacing bs) := by
  rw [bodyText, Block.texts_eq_map]
  refine refuses_soleRecord "struct Body" "blocks" [] spacing (opens_writeList _ _) ?_
  exact refuses_list (fun b hb => ⟨b.opens_text _, h b hb⟩) hbad

/-- A block is refused when its body is. -/
theorem Block.refuses_text_of_body (spacing : Spacing) (kind : String) (labels : List String)
    (m : Attributes) {bs : List Block} {n : Nat}
    (h : Refuses (readBody (n + 1)) (bodyText spacing.inner bs)) :
    Refuses (readBlock (n + 2)) ((Block.mk kind labels m bs).text spacing) := by
  have hmembers : RefusesMembers (blockMember (n + 1) (readBody (n + 1))) spacing
      ⟨some kind, some labels, some m, none⟩ [("body", bodyText spacing.inner bs)] := by
    refine .inl ?_
    intro rest
    exact field_none_refuses "body" spacing (h.orDefault [] (opens_writeObject _ _)) _ rest
  exact refuses_record (refusesMembers_block spacing kind labels m n _ hmembers)

/-- Without levels for its labels a block is refused there. -/
theorem Block.refuses_text_one (spacing : Spacing) (b : Block) :
    Refuses (readBlock 1) (b.text spacing) := by
  rcases b with ⟨kind, labels, m, bs⟩
  refine refuses_record (.inr ⟨⟨some kind, none, none, none⟩, ?_, .inl ?_⟩)
  · intro rest
    exact field_none "type" spacing
      ((reads_stringValue kind).orDefault "" (opens_writeString kind)) _ rest
  · intro rest
    have hlabels : Refuses (α := List String)
        (refuseBracket "a sequence" (· == Byte.openBracket))
        (writeList spacing.inner (labels.map writeString)) :=
      refuses_refuseBracket (opens_writeList spacing.inner _)
    exact field_none_refuses "labels" spacing (hlabels.orDefault [] (opens_writeList _ _)) _ rest

/-- A block is read from its own text if there are levels enough. -/
theorem Block.reads_text (b : Block) (spacing : Spacing) {n : Nat} (h : 3 * b.depth ≤ n) :
    Reads (readBlock n) (b.text spacing) b :=
  (b.spelled_text spacing).reads (b.denotes_json.gives h)

/-- Of blocks that nest too deep one by itself does. -/
theorem Block.exists_deep {bs : List Block} {n : Nat} (h : n < 3 * Block.depthList bs) :
    ∃ b ∈ bs, n < 3 * b.depth := by
  induction bs with
  | nil => simp [Block.depthList] at h
  | cons b bs ih =>
    rw [Block.depthList] at h
    by_cases hb : n < 3 * b.depth
    · exact ⟨b, List.mem_cons_self .., hb⟩
    · obtain ⟨b', hmem, hb'⟩ := ih (by omega)
      exact ⟨b', List.mem_cons_of_mem _ hmem, hb'⟩

mutual

/-- A block is refused if there are not levels enough. -/
theorem Block.refuses_text : (b : Block) → ∀ (spacing : Spacing) {n : Nat}, n < 3 * b.depth →
    Refuses (readBlock n) (b.text spacing)
  | .mk kind labels m bs => by
    intro spacing n h
    rw [Block.depth] at h
    match n, h with
    | 0, _ => exact refuses_refuseBracket (Block.opens_text spacing _)
    | 1, _ => exact Block.refuses_text_one spacing _
    | 2, _ =>
      refine Block.refuses_text_of_body spacing kind labels m ?_
      exact refuses_soleRecord "struct Body" "blocks" [] _ (opens_writeList _ _)
        (refuses_refuseBracket (opens_writeList _ _))
    | k + 3, h =>
      have hdeep : k < 3 * Block.depthList bs := by omega
      rcases Block.exists_deep hdeep with ⟨b, hb, hlt⟩
      refine Block.refuses_text_of_body spacing kind labels m (refuses_body spacing.inner ?_ ?_)
      · intro b hb
        by_cases hle : 3 * b.depth ≤ k
        · exact .inl (b.reads_text _ hle)
        · exact .inr (Block.refuses_texts bs _ b hb (by omega))
      · exact ⟨b, hb, Block.refuses_texts bs _ b hb hlt⟩

/-- In a list of blocks, each one with too many levels is refused. -/
theorem Block.refuses_texts : (bs : List Block) → ∀ (spacing : Spacing) {n : Nat}, ∀ b ∈ bs,
    n < 3 * b.depth → Refuses (readBlock n) (b.text spacing)
  | [] => by
    intro spacing n b hb
    cases hb
  | b :: bs => by
    intro spacing n b' hb' hlt
    rcases List.mem_cons.1 hb' with heq | hb'
    · rw [heq] at hlt ⊢
      exact Block.refuses_text b spacing hlt
    · exact Block.refuses_texts bs spacing b' hb' hlt

end

/-! ## Documents -/

/-- What denotes a document is decoded as it, unless its blocks nest too deep. -/
theorem Document.decode_of_denotes {d : Document} (hdepth : d.depth ≤ maxDepth) {v : Value}
    (h : Denotes v (.document d.blocks)) {s : List UInt8} (hs : IsText v s) :
    Document.decode s = .ok d := by
  have hlevels : (Content.document d.blocks).levels ≤ maxNesting := by
    have hle : Block.depthList d.blocks ≤ 41 := hdepth
    simp only [Content.levels, maxNesting]
    omega
  have hgives : Gives (readDocument maxNesting) v d := h.gives hlevels
  exact hgives.whole? hs

/-- The body of a document is refused if its blocks nest too deep. -/
theorem refuses_body_of_depth (spacing : Spacing) {bs : List Block}
    (h : maxDepth < Block.depthList bs) :
    Refuses (readBody (maxNesting - 1)) (bodyText spacing bs) := by
  have hdeep : ∃ b ∈ bs, 124 < 3 * b.depth := by
    have : 41 < Block.depthList bs := h
    exact Block.exists_deep (by omega)
  refine refuses_body spacing ?_ ?_
  · intro b _
    by_cases hle : 3 * b.depth ≤ 124
    · exact .inl (b.reads_text _ hle)
    · exact .inr (b.refuses_text _ (by omega))
  · rcases hdeep with ⟨b, hb, hlt⟩
    exact ⟨b, hb, b.refuses_text _ hlt⟩

/-- A document is refused when its blocks have too many levels. -/
theorem Document.refuses_blocks (spacing : Spacing) (d : Document) (h : maxDepth < d.depth) :
    Refuses (soleRecord "struct Document" "body" [] (readBody (maxNesting - 1)))
      (d.text spacing) :=
  refuses_soleRecord "struct Document" "body" [] spacing (opens_writeObject _ _)
    (refuses_body_of_depth spacing.inner h)

/-- A text that is refused as the blocks of a document is not decoded. -/
theorem Document.decode_of_refuses {t : List Char}
    (h : Refuses (soleRecord "struct Document" "body" [] (readBody (maxNesting - 1))) t)
    {before : List UInt8} (hbefore : Blank before) (after : List UInt8) :
    ∃ f, Document.decode (before ++ (Utf8.encode t ++ after)) = .error f := by
  rcases h before after hbefore with ⟨f, hf⟩
  refine ⟨f, ?_⟩
  simp only [Document.decode, whole?, readDocument, maxNesting, Nat.add_one_sub_one] at hf ⊢
  simp only [hf]

/-- The document of its own text, between any blanks. -/
theorem Document.decode_spaced (spacing : Spacing) (d : Document) (h : d.depth ≤ maxDepth)
    {before after : List UInt8} (hbefore : Blank before) (hafter : Blank after) :
    Document.decode (before ++ (Utf8.encode (d.text spacing) ++ after)) = .ok d :=
  Document.decode_of_denotes h d.denotes_json ((d.spelled_text spacing).isText hbefore hafter)

/-- The document of its own text. -/
theorem Document.decode_text (spacing : Spacing) (d : Document) (h : d.depth ≤ maxDepth) :
    Document.decode (Utf8.encode (d.text spacing)) = .ok d := by
  have hdecode := d.decode_spaced spacing h Blank.nil Blank.nil
  rwa [List.nil_append, List.append_nil] at hdecode

/-- The text of a document that is too deep is refused. -/
theorem Document.decode_text_of_deep (spacing : Spacing) (d : Document) (h : maxDepth < d.depth) :
    ∃ f, Document.decode (Utf8.encode (d.text spacing)) = .error f := by
  have hdecode := Document.decode_of_refuses (Document.refuses_blocks spacing d h) Blank.nil []
  rwa [List.nil_append, List.append_nil] at hdecode

/-- Bytes are decoded as the document if its blocks nest no deeper than can be decoded, and are
refused otherwise. -/
def Document.DecodedFrom (d : Document) (s : List UInt8) : Prop :=
  (Document.decode s = .ok d ↔ d.depth ≤ maxDepth) ∧
    ((∃ f, Document.decode s = .error f) ↔ maxDepth < d.depth)

/-- A written document is decoded to itself, or refused for its levels, whatever blanks follow it.
-/
theorem Document.decodedFrom_text (spacing : Spacing) (d : Document) {after : List UInt8}
    (hafter : Blank after) : d.DecodedFrom (Utf8.encode (d.text spacing) ++ after) := by
  rcases Nat.lt_or_ge maxDepth d.depth with hlt | hle
  · have hrefused :=
      Document.decode_of_refuses (Document.refuses_blocks spacing d hlt) Blank.nil after
    rw [List.nil_append] at hrefused
    rcases hrefused with ⟨f, hf⟩
    refine ⟨⟨fun h => ?_, fun h => absurd hlt (Nat.not_lt.2 h)⟩, fun _ => hlt, fun _ => ⟨f, hf⟩⟩
    rw [hf] at h
    cases h
  · have hread := d.decode_spaced spacing hle Blank.nil hafter
    rw [List.nil_append] at hread
    refine ⟨⟨fun _ => hle, fun _ => hread⟩, fun h => ?_, fun h => absurd h (Nat.not_lt.2 hle)⟩
    rcases h with ⟨f, hf⟩
    rw [hread] at hf
    cases hf

/-- A document is decoded from what it is encoded to, on one line or not and with or without a
newline at the end, just when its blocks nest at most forty-one levels deep. -/
theorem Document.decode_encode_iff (d : Document) :
    d.DecodedFrom d.encode ∧ d.DecodedFrom (d.encode ++ [0x0a]) ∧
      d.DecodedFrom d.encodePretty ∧ d.DecodedFrom (d.encodePretty ++ [0x0a]) := by
  have hnewline : Blank [0x0a] := Blank.cons rfl Blank.nil
  have hline := d.decodedFrom_text .compact Blank.nil
  have hlines := d.decodedFrom_text (.pretty 0) Blank.nil
  rw [List.append_nil] at hline hlines
  exact ⟨hline, d.decodedFrom_text .compact hnewline, hlines,
    d.decodedFrom_text (.pretty 0) hnewline⟩

end HclQuery
