import HclQuery.Configuration
import HclQuery.Document.Decode
import HclQuery.Document.Encode
import HclQuery.Filter

/-!
# Queries

A query turns configuration bytes into JSON, filters that, and turns the output back into canonical
configuration text.  Output that is no document, or has nothing to show, is returned as it is, or is
an error if the query is strict.

Main definitions:

- {lit}`Query.execute`: the result of a query.

Main results:

- Theorem {lit}`QueryOutput.bytes_raw`: a fallback hands over the bytes of the filter.
-/

namespace HclQuery

/-- Why filter output was passed through instead of formatted. -/
inductive FallbackReason where
  /-- The output does not decode as a document. -/
  | notADocument (message : String)
  /-- The output is a document without blocks. -/
  | emptyRendering
  deriving DecidableEq, Repr

/-- The wording of a reason. -/
def FallbackReason.message : FallbackReason → String
  | notADocument m => s!"output is not a document ({m})"
  | emptyRendering => "document has no blocks to render"

/-- The result of a successful query. -/
inductive QueryOutput where
  /-- Canonical configuration text. -/
  | formatted (bytes : List UInt8)
  /-- Filter output as it is. -/
  | raw (bytes : List UInt8) (reason : FallbackReason)
  deriving DecidableEq, Repr

/-- The bytes of a result. -/
def QueryOutput.bytes : QueryOutput → List UInt8
  | formatted b => b
  | raw b _ => b

/-- A fallback hands over the bytes of the filter. -/
theorem QueryOutput.bytes_raw (b : List UInt8) (r : FallbackReason) : (raw b r).bytes = b := rfl

/-- Why a query fails. -/
inductive QueryError where
  | parse (error : ParseError)
  | filter (error : FilterError)
  | notConvertible (reason : FallbackReason)
  deriving DecidableEq, Repr

namespace QueryError

/-- The wording of a failure. -/
def message : QueryError → String
  | parse e => e.message
  | filter e => e.message
  | notConvertible r =>
    s!"filter output cannot be converted back to configuration: {r.message}"

/-- The wording of what lies behind a failure, if anything does. -/
def causes : QueryError → List String
  | parse e => e.causes
  | filter e => e.causes
  | notConvertible _ => []

end QueryError

namespace Query

/-- What becomes of output that cannot be formatted. -/
def fallBack (strict : Bool) (bytes : List UInt8) (reason : FallbackReason) :
    Except QueryError QueryOutput :=
  if strict then .error (.notConvertible reason) else .ok (.raw bytes reason)

/-- What becomes of the output of a filter. -/
def convertBack (strict : Bool) (output : List UInt8) : Except QueryError QueryOutput :=
  match Document.decode output with
  | .error f => fallBack strict output (.notADocument (f.message output))
  | .ok d =>
    let text := fromDocument d
    if text.isEmpty then fallBack strict output .emptyRendering else .ok (.formatted text)

/-- The result of a query. -/
def execute (filter : Filter) (strict : Bool) (expression : String) (source : List UInt8) :
    Except QueryError QueryOutput :=
  match toDocument source with
  | .error e => .error (.parse e)
  | .ok d =>
    match filter expression d.encode with
    | .error e => .error (.filter e)
    | .ok output => convertBack strict output

end Query

end HclQuery
