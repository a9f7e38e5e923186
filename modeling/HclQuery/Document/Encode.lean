import HclQuery.Document.Basic
import HclQuery.Json.Writer
import HclQuery.Text.Utf8

/-!
# Documents as JSON: encoding

A document is an object with one member `body`, and a body is an object with one member `blocks`.  A
block has its type, its labels, its attributes in order of their names, and its body.

Main definitions:

- {lit}`Document.text`: the JSON text of a document.
- {lit}`Document.encode`: its bytes.
-/

namespace HclQuery

open Json

/-- The attributes as an object. -/
def Attributes.text (spacing : Spacing) (m : Attributes) : List Char :=
  writeObject spacing (m.entries.map fun e => (e.1, writeString e.2))

namespace Block

mutual

/-- The JSON text of a block. -/
def text (spacing : Spacing) : Block → List Char
  | mk kind labels attributes blocks =>
    writeObject spacing [
      ("type", writeString kind),
      ("labels", writeList spacing.inner (labels.map writeString)),
      ("attributes", attributes.text spacing.inner),
      ("body", writeObject spacing.inner
        [("blocks", writeList spacing.inner.inner (texts spacing.inner.inner.inner blocks))])]

/-- The JSON texts of blocks. -/
def texts (spacing : Spacing) : List Block → List (List Char)
  | [] => []
  | b :: bs => text spacing b :: texts spacing bs

end

end Block

/-- The JSON text of a body with the given blocks. -/
def bodyText (spacing : Spacing) (blocks : List Block) : List Char :=
  writeObject spacing [("blocks", writeList spacing.inner (Block.texts spacing.inner.inner blocks))]

namespace Document

/-- The JSON text of a document. -/
def text (spacing : Spacing) (d : Document) : List Char :=
  writeObject spacing [("body", bodyText spacing.inner d.blocks)]

/-- The JSON bytes of a document on one line. -/
def encode (d : Document) : List UInt8 :=
  Text.Utf8.encode (d.text .compact)

/-- The JSON bytes of a document with one member to a line. -/
def encodePretty (d : Document) : List UInt8 :=
  Text.Utf8.encode (d.text (.pretty 0))

end Document

end HclQuery
