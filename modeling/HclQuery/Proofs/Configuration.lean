import HclQuery.Configuration
import HclQuery.Proofs.Document.Rendering
import HclQuery.Proofs.Text.Utf8

/-!
# Configurations as bytes and as characters

What is known of a text holds of its bytes: the bytes of a document are read as its text, and they
are missing just when the document has no blocks.

Main results:

- Theorem {lit}`toDocument_eq_ok`: what bytes are accepted.
- Theorem {lit}`fromDocument_eq_nil_iff`: just the document without blocks has no bytes.
- Theorem {lit}`parseTree_fromDocument`: the bytes of a document are parsed as its text.
-/

namespace HclQuery

/-- A result that is given without its error is a success. -/
theorem ok_of_toOption {ε α : Type} {x : Except ε α} {a : α} (h : x.toOption = some a) :
    x = .ok a := by
  cases x with
  | error e => cases h
  | ok b =>
    have hab : b = a := Option.some.inj h
    rw [hab]

/-- Bytes are accepted if they are those of a text with a tree. -/
theorem toDocument_eq_ok {source : List UInt8} {d : Document} :
    toDocument source = .ok d ↔
      ∃ t b, Text.Utf8.decode source = .ok t ∧ Grammar.parse t = .ok b ∧ Document.ofTree b = d := by
  rw [toDocument, parseTree]
  rcases Text.Utf8.decode source with f | t
  · simp [Except.map]
  · rcases hparse : Grammar.parse t with e | b
    · simp [hparse, Except.map]
    · simp [hparse, Except.map]

/-- Just the document without blocks has no bytes. -/
theorem fromDocument_eq_nil_iff (d : Document) : fromDocument d = [] ↔ d.blocks = [] := by
  rw [← Document.render_eq_empty_iff, fromDocument]
  constructor
  · intro h
    have hnil := Text.Utf8.encode_injective (h.trans Text.Utf8.encode_nil.symm)
    rw [← String.ofList_toList (s := d.render), hnil, String.ofList_nil]
  · intro h
    rw [h]
    rfl

/-- The bytes of a document are parsed as its text. -/
theorem parseTree_fromDocument (d : Document) :
    parseTree (fromDocument d) =
      match Grammar.parse (Layout.format d.toTree) with
      | .ok b => .ok b
      | .error s => .error (.malformed [Grammar.locate (Layout.format d.toTree) s]) := by
  have hdecode := Text.Utf8.decode_encode (Layout.format d.toTree)
  rewrite [parseTree, fromDocument, Document.render, String.toList_ofList, hdecode]
  rfl

end HclQuery
