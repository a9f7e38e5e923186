import HclQuery.Text.Unicode.IdStart
import HclQuery.Text.Unicode.IdContinue
import HclQuery.Text.Unicode.Alphabetic
import HclQuery.Text.Unicode.Numeric
import HclQuery.Text.Unicode.GraphemeExtend
import HclQuery.Text.Unicode.Unprintable

/-!
# Text: character classes

The classes of characters that names, heredoc markers and messages are made of.  ASCII characters
are classified by comparison, all others by the tables of their Unicode property.

Main results:

- Theorem {lit}`isIdContinue_of_isIdStart_ascii`: an ASCII character that may begin an identifier
  may also continue one.
-/

namespace HclQuery.Text

/-- The character lies in one of the ranges. -/
def inRanges (ranges : List (Nat × Nat)) (c : Char) : Bool :=
  ranges.any fun r => r.1 ≤ c.toNat && c.toNat ≤ r.2

/-- Characters with the Unicode property `ID_Start`. -/
def isIdStart (c : Char) : Bool :=
  if c.toNat < 128 then c.isAlpha else inRanges Unicode.idStartRanges c

/-- Characters with the Unicode property `ID_Continue`. -/
def isIdContinue (c : Char) : Bool :=
  if c.toNat < 128 then c.isAlphanum || c == '_' else inRanges Unicode.idContinueRanges c

/-- Characters that are alphabetic or numeric in Unicode. -/
def isAlphanumeric (c : Char) : Bool :=
  if c.toNat < 128 then c.isAlphanum
  else inRanges Unicode.alphabeticRanges c || inRanges Unicode.numericRanges c

/-- The control characters: those below U+0020 and those from U+007F to U+009F. -/
def isControl (c : Char) : Bool :=
  c.toNat < 0x20 || (0x7f ≤ c.toNat && c.toNat ≤ 0x9f)

/-- Characters shown as they are in a quoted excerpt: neither invisible nor attached to the
character before them. -/
def isPlain (c : Char) : Bool :=
  if c.toNat < 128 then !isControl c
  else !inRanges Unicode.unprintableRanges c && !inRanges Unicode.graphemeExtendRanges c

/-- An ASCII character that may begin an identifier may also continue one. -/
theorem isIdContinue_of_isIdStart_ascii {c : Char} (hc : c.toNat < 128)
    (h : isIdStart c = true) : isIdContinue c = true := by
  simp only [isIdStart, hc, if_true] at h
  simp [isIdContinue, hc, Char.isAlphanum, h]

end HclQuery.Text
