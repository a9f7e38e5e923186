import HclQuery.Decimal.Shortest
import HclQuery.Text.Excerpt

/-!
# Values of the wrong shape

What a decoder finds where it expects something else, and how a message names it.

Main definitions:

- {lit}`Found`: a value as messages see it.
- {lit}`Found.mismatch`: the wording of a mismatch.
-/

namespace HclQuery

/-- A value as messages see it. -/
inductive Found where
  | null
  | boolean (b : Bool)
  | integer (n : Int)
  | float (x : Decimal.Binary64)
  | string (s : String)
  | sequence
  | map
  deriving DecidableEq, Repr

/-- The value in the words of a message; numbers with a point are written in a style. -/
def Found.describe (style : Decimal.Style) : Found → String
  | null => "null"
  | boolean true => "boolean `true`"
  | boolean false => "boolean `false`"
  | integer n => s!"integer `{n}`"
  | float x => "floating point `" ++ style.write x ++ "`"
  | string s => "string " ++ Text.excerpt s
  | sequence => "sequence"
  | map => "map"

/-- The wording of a mismatch between a value and what was expected. -/
def Found.mismatch (style : Decimal.Style) (found : Found) (expected : String) : String :=
  "invalid type: " ++ found.describe style ++ ", expected " ++ expected

end HclQuery
