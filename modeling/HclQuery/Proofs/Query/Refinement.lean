import HclQuery.Proofs.Configuration
import HclQuery.Proofs.Document.Codec
import HclQuery.Query

/-!
# Queries that edit documents

A query whose filter decodes its payload, edits the document and encodes it again gives the
canonical text of the edited document, so the JSON in between does not show.  It does show when
blocks nest too deep to be decoded: then even the filter that gives its payload back is not followed
by formatting.

Main definitions:

- {lit}`Filter.ofEdit`: the filter that edits documents.
- {lit}`Filter.identity`: the filter that gives its payload back.

Main results:

- Theorem {lit}`Query.execute_ofEdit`: a query that edits is the edit of the document.
- Theorem {lit}`Query.execute_identity`: a query that changes nothing formats, if blocks nest no
  deeper than can be decoded.
-/

namespace HclQuery

open Text (Utf8.encode)

namespace Filter

/-- The filter that decodes its payload, edits the document and encodes it again. -/
def ofEdit (edit : Document → Document) (write : Document → List UInt8)
    (refuse : Json.Fault → FilterError) : Filter := fun _ payload =>
  match Document.decode payload with
  | .error f => .error (refuse f)
  | .ok d => .ok (write (edit d))

/-- The filter that gives its payload back. -/
def identity : Filter := fun _ payload => .ok payload

end Filter

namespace Query

/-- The output of a filter is formatted if it decodes as a document with blocks. -/
theorem convertBack_of_decode {output : List UInt8} {d : Document}
    (h : Document.decode output = .ok d) (hblocks : d.blocks ≠ []) (strict : Bool) :
    convertBack strict output = .ok (.formatted (fromDocument d)) := by
  have hne : (fromDocument d).isEmpty = false := by
    rw [Bool.eq_false_iff]
    intro hempty
    exact hblocks ((fromDocument_eq_nil_iff d).1 (List.isEmpty_iff.1 hempty))
  simp only [convertBack, h, hne, Bool.false_eq_true, if_false]

/-- A query that edits is the edit of the document, whichever way the filter writes JSON. -/
theorem execute_ofEdit {source : List UInt8} {d : Document} {edit : Document → Document}
    (hsource : toDocument source = .ok d) (hdepth : d.depth ≤ maxDepth)
    (hblocks : (edit d).blocks ≠ []) (hedit : (edit d).depth ≤ maxDepth)
    (refuse : Json.Fault → FilterError) (strict : Bool) (expression : String) :
    execute (.ofEdit edit Document.encode refuse) strict expression source =
        .ok (.formatted (fromDocument (edit d))) ∧
      execute (.ofEdit edit Document.encodePretty refuse) strict expression source =
        .ok (.formatted (fromDocument (edit d))) := by
  have hpayload : Document.decode d.encode = .ok d := Document.decode_text .compact d hdepth
  constructor
  · have houtput := Document.decode_text .compact (edit d) hedit
    simp only [execute, hsource, Filter.ofEdit, hpayload]
    exact convertBack_of_decode houtput hblocks strict
  · have houtput := Document.decode_text (.pretty 0) (edit d) hedit
    simp only [execute, hsource, Filter.ofEdit, hpayload]
    exact convertBack_of_decode houtput hblocks strict

/-- A document with one more block. -/
def withBlock (d : Document) : Document :=
  ⟨d.blocks ++ [.mk "b" [] .empty []]⟩

/-- A block is added to a configuration with one. -/
theorem execute_ofEdit_withBlock :
    let refuse : Json.Fault → FilterError := fun f => .read f.cause.message
    let formatted := fromDocument (withBlock ⟨[.mk "a" [] .empty []]⟩)
    execute (.ofEdit withBlock Document.encode refuse) true "." (Utf8.encode ['a', '{', '}']) =
        .ok (.formatted formatted) ∧
      execute (.ofEdit withBlock Document.encodePretty refuse) true "."
          (Utf8.encode ['a', '{', '}']) = .ok (.formatted formatted) := by
  have hsource : toDocument (Utf8.encode ['a', '{', '}']) = .ok ⟨[.mk "a" [] .empty []]⟩ :=
    ok_of_toOption (by decide +kernel)
  exact execute_ofEdit hsource (by decide) (by decide) (by decide) _ true "."

/-- A document that is too deep is not formatted. -/
theorem convertBack_of_deep {d : Document} (h : maxDepth < d.depth) (strict : Bool) :
    ∃ message, convertBack strict d.encode = fallBack strict d.encode (.notADocument message) := by
  rcases Document.decode_text_of_deep .compact d h with ⟨f, hf⟩
  have hdecode : Document.decode d.encode = .error f := hf
  exact ⟨f.message d.encode, by simp only [convertBack, hdecode]⟩

/-- An output that is passed on as it is has not been formatted. -/
theorem fallBack_ne_formatted (strict : Bool) (bytes : List UInt8) (reason : FallbackReason)
    (text : List UInt8) : fallBack strict bytes reason ≠ .ok (.formatted text) := by
  cases strict <;> simp [fallBack]

/-- A query that changes nothing formats if blocks nest no deeper than can be decoded, and falls
back on its payload otherwise. -/
theorem execute_identity {source : List UInt8} {d : Document} (hsource : toDocument source = .ok d)
    (hblocks : d.blocks ≠ []) (strict : Bool) (expression : String) :
    (execute .identity strict expression source = .ok (.formatted (fromDocument d)) ↔
        d.depth ≤ maxDepth) ∧
      (maxDepth < d.depth → ∃ message,
        execute .identity strict expression source =
          fallBack strict d.encode (.notADocument message)) := by
  have hexecute : execute .identity strict expression source = convertBack strict d.encode := by
    simp only [execute, hsource, Filter.identity]
  rw [hexecute]
  refine ⟨⟨?_, ?_⟩, fun hlt => convertBack_of_deep hlt strict⟩
  · intro hformatted
    rcases Nat.lt_or_ge maxDepth d.depth with hlt | hle
    · rcases convertBack_of_deep hlt strict with ⟨message, hraw⟩
      exact absurd (hraw.symm.trans hformatted) (fallBack_ne_formatted strict _ _ _)
    · exact hle
  · intro hle
    exact convertBack_of_decode (Document.decode_text .compact d hle) hblocks strict

/-- A block in a block is formatted. -/
theorem execute_identity_two :
    execute .identity true "." (Utf8.encode ['a', '{', 'b', '{', '}', '}']) =
      .ok (.formatted (fromDocument ⟨[.mk "a" [] .empty [.mk "b" [] .empty []]]⟩)) := by
  have hsource : toDocument (Utf8.encode ['a', '{', 'b', '{', '}', '}']) =
      .ok ⟨[.mk "a" [] .empty [.mk "b" [] .empty []]]⟩ :=
    ok_of_toOption (by decide +kernel)
  exact (execute_identity hsource (by decide) true ".").1.2 (by decide)

/-- Blocks inside each other, so many levels deep. -/
def nestedBlocks : Nat → List Block
  | 0 => []
  | n + 1 => [.mk "a" [] .empty (nestedBlocks n)]

/-- A configuration of blocks inside each other. -/
def nestedSource (n : Nat) : List UInt8 :=
  Utf8.encode ((List.replicate n ['a', ' ', '{', '\n']).flatten ++
    (List.replicate n ['}', '\n']).flatten)

/-- Blocks nested in each other are as deep as there are of them. -/
theorem depthList_nestedBlocks (n : Nat) : Block.depthList (nestedBlocks n) = n := by
  induction n with
  | zero => rfl
  | succ n ih => rw [nestedBlocks, Block.depthList, Block.depth, ih, Block.depthList, Nat.max_zero]

/-- Forty-two blocks inside each other are not formatted. -/
theorem execute_identity_nestedSource :
    toDocument (nestedSource 42) = .ok ⟨nestedBlocks 42⟩ ∧ nestedBlocks 42 ≠ [] ∧
      execute .identity false "." (nestedSource 42) ≠
        .ok (.formatted (fromDocument ⟨nestedBlocks 42⟩)) := by
  have hsource : toDocument (nestedSource 42) = .ok ⟨nestedBlocks 42⟩ :=
    ok_of_toOption (by decide +kernel)
  refine ⟨hsource, List.cons_ne_nil _ _, ?_⟩
  have hdeep : maxDepth < (Document.mk (nestedBlocks 42)).depth := by
    rw [Document.depth, depthList_nestedBlocks]
    decide
  rcases convertBack_of_deep hdeep false with ⟨message, hraw⟩
  simp only [execute, hsource, Filter.identity, hraw]
  exact fallBack_ne_formatted false _ _ _

end Query

end HclQuery
