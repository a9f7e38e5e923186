import HclQuery.Proofs.Document.Reading

/-!
# Documents block by block

The canonical bytes of a document are the bytes of its blocks, each written by itself, with one
empty line between neighbours.  So a block is written in the same way in every document: taking
other blocks out, adding them or moving them leaves its text as it is.  Only the newlines at the
front of the first type are ever cut, so the types must not begin with one.

Main definitions:

- {lit}`Block.bytes`: the canonical bytes of a block by itself.

Main results:

- Theorem {lit}`fromDocument_append`: the bytes of two lists of blocks one after the other.
- Theorem {lit}`Block.exists_bytes`: the bytes of a block begin with no newline and end in one.
- Theorem {lit}`fromDocument_blockwise`: a document is written block by block.
-/

namespace HclQuery

open Text Layout

/-! ## Pages -/

/-- The pages of two lists of blocks one after the other. -/
theorem Block.page_append {as bs : List Block} (has : as ≠ []) (hbs : bs ≠ []) :
    Block.page (as ++ bs) = Block.page as ++ '\n' :: Block.page bs := by
  rcases List.exists_cons_of_ne_nil hbs with ⟨b, bs, rfl⟩
  induction as with
  | nil => exact absurd rfl has
  | cons a as ih =>
    cases as with
    | nil => rfl
    | cons a' as =>
      rw [List.cons_append, List.cons_append, page_cons_cons, page_cons_cons, ← List.cons_append,
        ih (List.cons_ne_nil a' as)]
      simp

/-- The canonical bytes of a document are those of its page. -/
theorem fromDocument_eq_page {bs : List Block} (h : Block.FrontUncut bs) :
    fromDocument ⟨bs⟩ = Utf8.encode (Block.page bs) := by
  rw [fromDocument, Document.render, String.toList_ofList, format_eq_page h]

/-- Only the first block decides whether a page begins with a newline. -/
theorem Block.FrontUncut.append {as : List Block} (h : FrontUncut as) (has : as ≠ [])
    (bs : List Block) : FrontUncut (as ++ bs) := by
  rcases List.exists_cons_of_ne_nil has with ⟨a, as, rfl⟩
  exact h

/-- When no block begins with a newline, neither does the page. -/
theorem Block.frontUncut_of_forall {bs : List Block} (h : ∀ b ∈ bs, b.Uncut) :
    FrontUncut bs :=
  fun b hb => h b (List.mem_of_mem_head? hb)

/-- The bytes of two lists of blocks one after the other: an empty line stands between them. -/
theorem fromDocument_append {as bs : List Block} (has : as ≠ []) (hbs : bs ≠ [])
    (ha : Block.FrontUncut as) (hb : Block.FrontUncut bs) :
    fromDocument ⟨as ++ bs⟩ = fromDocument ⟨as⟩ ++ 0x0a :: fromDocument ⟨bs⟩ := by
  have hnewline : String.utf8EncodeChar '\n' = [0x0a] := rfl
  rw [fromDocument_eq_page (ha.append has bs), fromDocument_eq_page ha, fromDocument_eq_page hb,
    Block.page_append has hbs, Utf8.encode_append, Utf8.encode_cons, hnewline]
  rfl

/-! ## Blocks by themselves -/

/-- The canonical bytes of a block by itself. -/
def Block.bytes (b : Block) : List UInt8 :=
  fromDocument ⟨[b]⟩

/-- The first byte of a character is a newline just if the character is one. -/
theorem head?_encodeChar {c : Char} (hc : c ≠ '\n') :
    (String.utf8EncodeChar c).head? ≠ some 0x0a := by
  intro h
  have hmem : (0x0a : UInt8) ∈ String.utf8EncodeChar c := List.mem_of_mem_head? h
  by_cases hascii : c.toNat < 0x80
  · rw [Utf8.encodeChar_ascii hascii, List.mem_singleton] at hmem
    have hn : (0x0a : UInt8).toNat = c.toNat := by
      rw [hmem, Utf8.toNat_ofNat_of_lt (by omega)]
    have hback : Char.ofNat c.toNat = c := Char.ofNat_toNat c
    exact hc (by rw [← hback, ← hn]; rfl)
  · have hge := Utf8.encode_byte_of_not_ascii (by omega) hmem
    have hsmall : (0x0a : UInt8).toNat = 10 := rfl
    omega

/-- The bytes of a block begin with no newline, and they end with the brace that closes the block
and one newline. -/
theorem Block.exists_bytes {b : Block} (hb : b.Uncut) :
    b.bytes.head? ≠ some 0x0a ∧ ∃ t, b.bytes = t ++ [0x7d, 0x0a] := by
  have hfront : FrontUncut [b] := fun c hc => Option.some.inj hc ▸ hb
  rcases b.exists_layout with ⟨w, hw⟩
  have hbytes : b.bytes = Utf8.encode (b.kind.toList ++ ' ' :: (w ++ ['}', '\n'])) := by
    rw [bytes, fromDocument_eq_page hfront, page, hw]
  constructor
  · rw [hbytes]
    cases hkind : b.kind.toList with
    | nil =>
      intro h
      cases h
    | cons c u =>
      have hc : c ≠ '\n' := by
        rintro rfl
        exact hb (by rw [hkind]; rfl)
      have hne : String.utf8EncodeChar c ≠ [] := String.utf8EncodeChar_ne_nil
      rw [List.cons_append, Utf8.encode_cons, List.head?_append_of_ne_nil _ hne]
      exact head?_encodeChar hc
  · refine ⟨Utf8.encode (b.kind.toList ++ ' ' :: w), ?_⟩
    have hend : Utf8.encode ['}', '\n'] = [0x7d, 0x0a] := rfl
    rw [hbytes, ← List.cons_append, ← List.append_assoc, Utf8.encode_append, hend]

/-! ## Blocks in documents -/

/-- A document is written as its blocks by themselves, with an empty line between neighbours. -/
theorem fromDocument_eq_intercalate {bs : List Block} (h : ∀ b ∈ bs, b.Uncut) :
    fromDocument ⟨bs⟩ = List.intercalate [0x0a] (bs.map Block.bytes) := by
  induction bs with
  | nil => rfl
  | cons b bs ih =>
    have hrest : ∀ c ∈ bs, c.Uncut := fun c hc => h c (List.mem_cons_of_mem b hc)
    cases bs with
    | nil => exact List.intercalate_singleton.symm
    | cons c bs =>
      have hone : Block.FrontUncut [b] :=
        Block.frontUncut_of_forall fun a ha => h a (List.mem_singleton.1 ha ▸ List.mem_cons_self ..)
      have hsplit := fromDocument_append (List.cons_ne_nil b []) (List.cons_ne_nil c bs) hone
        (Block.frontUncut_of_forall hrest)
      rw [List.singleton_append, ih hrest] at hsplit
      have hfirst : fromDocument ⟨[b]⟩ = b.bytes := rfl
      rw [hsplit, hfirst]
      simp only [List.map_cons, List.intercalate_cons_cons, List.append_assoc,
        List.singleton_append]

/-- A separated list, taken apart at one of its members. -/
theorem intercalate_append_cons {α : Type} (sep x : List α) (xs ys : List (List α)) :
    List.intercalate sep (xs ++ x :: ys) =
      xs.flatMap (· ++ sep) ++ (x ++ ys.flatMap (sep ++ ·)) := by
  induction xs with
  | nil =>
    induction ys generalizing x with
    | nil => simp
    | cons y ys ih => simpa [List.intercalate_cons_cons] using ih y
  | cons z xs ih =>
    cases xs with
    | nil => simpa [List.intercalate_cons_cons] using ih
    | cons z' xs => simpa [List.intercalate_cons_cons] using ih

/-- Around a block stands what the blocks before it and those after it are written as, whatever the
block is: it does not depend on its neighbours, nor they on it. -/
theorem fromDocument_split {as bs : List Block} {b : Block} (h : ∀ c ∈ as ++ b :: bs, c.Uncut) :
    fromDocument ⟨as ++ b :: bs⟩ =
      as.flatMap (fun a => a.bytes ++ [0x0a]) ++
        (b.bytes ++ bs.flatMap fun c => 0x0a :: c.bytes) := by
  rw [fromDocument_eq_intercalate h, List.map_append, List.map_cons, intercalate_append_cons]
  simp only [List.flatMap_map, List.singleton_append]

/-- Two lists of blocks are written one after the other with an empty line between them, so a
document is its blocks, each written by itself, with empty lines between them.  The bytes of a
block begin with no newline and end in one, so there is one empty line and no more; and around any
block stands what the other blocks alone are written as. -/
theorem fromDocument_blockwise :
    (∀ as bs : List Block, as ≠ [] → bs ≠ [] → Block.FrontUncut as → Block.FrontUncut bs →
      fromDocument ⟨as ++ bs⟩ = fromDocument ⟨as⟩ ++ 0x0a :: fromDocument ⟨bs⟩) ∧
    (∀ d : Document, (∀ b ∈ d.blocks, b.Uncut) →
      fromDocument d = List.intercalate [0x0a] (d.blocks.map Block.bytes)) ∧
    (∀ b : Block, b.Uncut → b.bytes.head? ≠ some 0x0a ∧ ∃ t, b.bytes = t ++ [0x7d, 0x0a]) ∧
    ∀ (as bs : List Block) (b : Block), (∀ c ∈ as ++ b :: bs, c.Uncut) →
      fromDocument ⟨as ++ b :: bs⟩ =
        as.flatMap (fun a => a.bytes ++ [0x0a]) ++
          (b.bytes ++ bs.flatMap fun c => 0x0a :: c.bytes) :=
  ⟨fun _ _ has hbs ha hb => fromDocument_append has hbs ha hb,
    fun _ h => fromDocument_eq_intercalate h,
    fun _ hb => Block.exists_bytes hb,
    fun _ _ _ h => fromDocument_split h⟩

/-- A block with a heredoc that ends in an empty line, and a value over several lines. -/
def heredocBlock : Block :=
  .mk "a" ["x"] (.ofList [("list", "[\n1\n]"), ("text", "<<E\n\n\x7d\n\nE")]) []

/-- A block inside a block whose type begins with a space. -/
def spacedBlock : Block :=
  .mk " b" [] .empty [.mk "c" [] .empty []]

/-- A block with a heredoc and a block with spaced attributes, in either order. -/
theorem fromDocument_blockwise_heredoc :
    heredocBlock.Uncut ∧ spacedBlock.Uncut ∧
      fromDocument ⟨[heredocBlock] ++ [spacedBlock]⟩ =
        fromDocument ⟨[heredocBlock]⟩ ++ 0x0a :: fromDocument ⟨[spacedBlock]⟩ ∧
      fromDocument ⟨[spacedBlock, heredocBlock]⟩ =
        List.intercalate [0x0a] [spacedBlock.bytes, heredocBlock.bytes] ∧
      (∃ t, heredocBlock.bytes = t ++ [0x7d, 0x0a]) ∧
      fromDocument ⟨[heredocBlock] ++ spacedBlock :: [heredocBlock]⟩ =
        heredocBlock.bytes ++ [0x0a] ++ (spacedBlock.bytes ++ 0x0a :: heredocBlock.bytes) := by
  have hheredoc : heredocBlock.Uncut := by decide
  have hspaced : spacedBlock.Uncut := by decide
  have hall : ∀ c ∈ [heredocBlock] ++ spacedBlock :: [heredocBlock], c.Uncut := by decide
  rcases fromDocument_blockwise with ⟨happend, hjoin, hends, hsplit⟩
  refine ⟨hheredoc, hspaced, ?_, ?_, (hends heredocBlock hheredoc).2, ?_⟩
  · exact happend [heredocBlock] [spacedBlock] (List.cons_ne_nil _ _) (List.cons_ne_nil _ _)
      (fun b hb => Option.some.inj hb ▸ hheredoc) fun b hb => Option.some.inj hb ▸ hspaced
  · exact hjoin ⟨[spacedBlock, heredocBlock]⟩ (by decide)
  · simpa using hsplit [heredocBlock] [heredocBlock] spacedBlock hall

end HclQuery
