import HclQuery.Document.Conversion
import HclQuery.Grammar.Concrete
import HclQuery.Grammar.Diagnosis
import HclQuery.Text.Utf8

/-!
# Configurations as bytes

Configuration bytes are read as UTF-8 and then as the grammar says; a document is written back as
canonical text.

Main definitions:

- {lit}`parseTree`: the syntax tree of configuration bytes.
- {lit}`toDocument`: their document.
- {lit}`fromDocument`: the canonical bytes of a document.
-/

namespace HclQuery

open Text

/-- Why configuration bytes are refused. -/
inductive ParseError where
  | invalidUtf8 (fault : Utf8.Fault)
  /-- No grammar is at hand. -/
  | noGrammar
  /-- Parsing was given up. -/
  | noResult
  | malformed (locations : List Grammar.Location)
  deriving DecidableEq, Repr

namespace ParseError

/-- The wording of a refusal. -/
def message : ParseError → String
  | invalidUtf8 f => "configuration is not valid UTF-8: " ++ f.message
  | noGrammar => "failed to set HCL language for parser"
  | noResult => "failed to parse configuration"
  | malformed [] => "invalid HCL syntax: unrecognized input"
  | malformed ls => "invalid HCL syntax: " ++ "; ".intercalate (ls.map (·.message))

/-- The wording of what lies behind a refusal, if anything does. -/
def causes : ParseError → List String
  | invalidUtf8 f => [f.message]
  | _ => []

end ParseError

/-- The syntax tree of configuration bytes. -/
def parseTree (source : List UInt8) : Except ParseError Tree.Body :=
  match Utf8.decode source with
  | .error f => .error (.invalidUtf8 f)
  | .ok t =>
    match Grammar.parse t with
    | .ok b => .ok b
    | .error s => .error (.malformed [Grammar.locate t s])

/-- The document of configuration bytes. -/
def toDocument (source : List UInt8) : Except ParseError Document :=
  (parseTree source).map Document.ofTree

/-- The canonical bytes of a document; none if it has no blocks. -/
def fromDocument (d : Document) : List UInt8 :=
  Utf8.encode d.render.toList

end HclQuery
