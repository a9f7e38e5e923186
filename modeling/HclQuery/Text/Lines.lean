/-!
# Text: lines

A text is the sequence of its lines, which are divided by newlines; the empty text has one empty
line.

Main results:

- Theorem {lit}`unlines_lines`: joining the lines of a text gives the text back.
-/

namespace HclQuery.Text

/-- The lines of a text, without their newlines. -/
def lines : List Char → List (List Char)
  | [] => [[]]
  | c :: t =>
    if c = '\n' then [] :: lines t
    else
      match lines t with
      | [] => [[c]]
      | l :: ls => (c :: l) :: ls

/-- The lines joined by newlines. -/
def unlines : List (List Char) → List Char
  | [] => []
  | [l] => l
  | l :: ls => l ++ '\n' :: unlines ls

/-- Every text has a line, also the empty one. -/
theorem lines_ne_nil (t : List Char) : lines t ≠ [] := by
  cases t with
  | nil => simp [lines]
  | cons c t =>
    rw [lines]
    split
    · simp
    · split <;> simp

theorem unlines_cons_cons (l m : List Char) (ls : List (List Char)) :
    unlines (l :: m :: ls) = l ++ '\n' :: unlines (m :: ls) := rfl

/-- Joining the lines of a text gives the text back. -/
theorem unlines_lines (t : List Char) : unlines (lines t) = t := by
  induction t with
  | nil => rfl
  | cons c t ih =>
    rw [lines]
    split
    · next h =>
      subst h
      cases hl : lines t with
      | nil => exact absurd hl (lines_ne_nil t)
      | cons l ls => rw [unlines_cons_cons, ← hl, ih]; rfl
    · cases hl : lines t with
      | nil => exact absurd hl (lines_ne_nil t)
      | cons l ls =>
        rw [hl] at ih
        cases ls with
        | nil => simpa [unlines] using ih
        | cons m ls => simpa [unlines] using ih

end HclQuery.Text
