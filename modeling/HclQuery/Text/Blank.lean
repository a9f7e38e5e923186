/-!
# Text: blank characters and trimming

Texts are lists of characters throughout the library.  This module fixes which characters count as
blank when a text is trimmed, and the three ways of trimming.

Main results:

- Theorem {lit}`trim_nil`: nothing is left of the empty text.
- Theorem {lit}`trimStart_of_not_blank`: a text that begins with a visible character keeps its
  front.
-/

namespace HclQuery.Text

/-- The characters with the Unicode property `White_Space`. -/
def isBlank (c : Char) : Bool :=
  let n := c.toNat
  (9 ≤ n && n ≤ 13) || n == 0x20 || n == 0x85 || n == 0xa0 || n == 0x1680 ||
    (0x2000 ≤ n && n ≤ 0x200a) || n == 0x2028 || n == 0x2029 || n == 0x202f || n == 0x205f ||
    n == 0x3000

/-- The text without the blank characters at its front. -/
def trimStart (t : List Char) : List Char :=
  t.dropWhile isBlank

/-- The text without the blank characters at its end. -/
def trimEnd (t : List Char) : List Char :=
  (t.reverse.dropWhile isBlank).reverse

/-- The text without the blank characters at either end. -/
def trim (t : List Char) : List Char :=
  trimEnd (trimStart t)

/-- A text with no visible character. -/
def allBlank (t : List Char) : Bool :=
  t.all isBlank

@[simp]
theorem trim_nil : trim [] = [] := rfl

/-- A text that begins with a visible character begins with it after trimming. -/
theorem trimStart_of_not_blank {c : Char} {t : List Char} (h : isBlank c = false) :
    trimStart (c :: t) = c :: t := by
  simp [trimStart, h]

end HclQuery.Text
