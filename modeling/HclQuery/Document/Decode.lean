import HclQuery.Document.Basic
import HclQuery.Json.Decoder

/-!
# Documents as JSON: decoding

Reading a document is lenient: a field that is missing or null is empty, and unknown fields are
skipped.  A record may also be given as the list of its fields.  Lists and objects of documents may
nest 127 deep; what is skipped may nest as it likes.

Main definitions:

- {lit}`Document.decode`: the document of JSON bytes, or the fault.
-/

namespace HclQuery

open Json

/-- How deeply the lists and objects of a document may nest. -/
def maxNesting : Nat := 127

namespace Attributes

/-- The bytes that open a map. -/
def isOpen (b : UInt8) : Bool :=
  b == Byte.openBrace

/-- One attribute; it replaces an earlier one of the same name. -/
def member (m : Attributes) (name : String) : Reader Attributes := fun s =>
  match memberValue stringValue s with
  | .error f => .error f
  | .ok (raw, s) => .ok (m.insert name raw, s)

/-- A map from names to expression text, with so many levels to go. -/
def read : Nat → Reader Attributes
  | 0 => refuseBracket "a map" isOpen
  | _ + 1 => Json.map member empty

end Attributes

/-- A list of labels, with so many levels to go. -/
def readLabels : Nat → Reader (List String)
  | 0 => refuseBracket "a sequence" (· == Byte.openBracket)
  | _ + 1 => Json.list stringValue

/-- The bytes that open a record. -/
def isRecordOpen (b : UInt8) : Bool :=
  b == Byte.openBracket || b == Byte.openBrace

/-- What was given of a block so far. -/
structure BlockFields where
  kind : Option String
  labels : Option (List String)
  attributes : Option Attributes
  body : Option (List Block)

/-- Nothing was given yet. -/
def BlockFields.none : BlockFields := ⟨.none, .none, .none, .none⟩

/-- The block of the given fields; the others are empty. -/
def BlockFields.block (f : BlockFields) : Block :=
  .mk (f.kind.getD "") (f.labels.getD []) (f.attributes.getD .empty) (f.body.getD [])

/-- The fields of a block given as a list. -/
def blockByPosition (levels : Nat) (body : Reader (List Block)) : Reader Block := fun s => do
  let (kind, s) ← positional true "" (orDefault "" stringValue) s
  let (labels, s) ← positional false [] (orDefault [] (readLabels levels)) s
  let (attributes, s) ← positional false .empty (orDefault .empty (Attributes.read levels)) s
  let (blocks, s) ← positional false [] (orDefault [] body) s
  return (.mk kind labels attributes blocks, s)

/-- A member of a block given as an object. -/
def blockMember (levels : Nat) (body : Reader (List Block)) (f : BlockFields) (key : String) :
    Reader BlockFields :=
  if key = "type" then
    field "type" f.kind (orDefault "" stringValue) fun x => { f with kind := some x }
  else if key = "labels" then
    field "labels" f.labels (orDefault [] (readLabels levels)) fun x => { f with labels := some x }
  else if key = "attributes" then
    field "attributes" f.attributes (orDefault .empty (Attributes.read levels)) fun x =>
      { f with attributes := some x }
  else if key = "body" then
    field "body" f.body (orDefault [] body) fun x => { f with body := some x }
  else ignored f

/-- A member of a record with the one field `name`. -/
def soleMember {α : Type} (name : String) (default : α) (value : Reader α) (before : Option α)
    (key : String) : Reader (Option α) :=
  if key = name then field name before (orDefault default value) some else ignored before

/-- A record with the one field `name`. -/
def soleRecord {α : Type} (expected name : String) (default : α) (value : Reader α) : Reader α :=
  record expected (positional true default (orDefault default value))
    (soleMember name default value) none (·.getD default)

mutual

/-- A body, with so many levels to go. -/
def readBody : Nat → Reader (List Block)
  | 0 => refuseBracket "struct Body" isRecordOpen
  | n + 1 => soleRecord "struct Body" "blocks" [] (readBlocks n)

/-- A list of blocks, with so many levels to go. -/
def readBlocks : Nat → Reader (List Block)
  | 0 => refuseBracket "a sequence" (· == Byte.openBracket)
  | n + 1 => Json.list (readBlock n)

/-- A block, with so many levels to go. -/
def readBlock : Nat → Reader Block
  | 0 => refuseBracket "struct Block" isRecordOpen
  | n + 1 =>
    record "struct Block" (blockByPosition n (readBody n)) (blockMember n (readBody n)) .none
      BlockFields.block

end

/-- A document, with so many levels to go. -/
def readDocument : Nat → Reader Document
  | 0 => refuseBracket "struct Document" isRecordOpen
  | n + 1 => fun s =>
    match soleRecord "struct Document" "body" [] (readBody n) s with
    | .error f => .error f
    | .ok (blocks, s) => .ok (⟨blocks⟩, s)

/-- The document of JSON bytes, or the fault. -/
def Document.decode (s : List UInt8) : Except Fault Document :=
  whole? (readDocument maxNesting) s

end HclQuery
