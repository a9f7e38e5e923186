/-!
# Grammar: what stands between tokens

Blanks and comments may stand between any two tokens.  Newlines are blanks like any other.

Main results:

- Theorem {lit}`skipTrivia_length_le`: skipping never adds to a text.
-/

namespace HclQuery.Grammar

/-- The blanks of the grammar are the ASCII ones. -/
def isSpace (c : Char) : Bool :=
  c == ' ' || c == '\n' || c == '\t' || c == '\r' || c == '\x0b' || c == '\x0c'

mutual

/-- The text without the blanks and comments in front of it.  A block comment that is never closed
is no comment. -/
def skipTrivia : List Char → List Char
  | [] => []
  | c :: t =>
    if isSpace c then skipTrivia t
    else if c = '#' then skipLine t
    else if c = '/' then
      match t with
      | [] => [c]
      | d :: u =>
        if d = '/' then skipLine u else if d = '*' then skipBlock (c :: d :: u) u else c :: d :: u
    else c :: t

/-- The text after a line comment and what is skipped after it.  No comment holds a NUL. -/
def skipLine : List Char → List Char
  | [] => []
  | c :: t => if c = '\n' then skipTrivia t else if c = '\x00' then c :: t else skipLine t

/-- The text after a block comment and what is skipped after it, or the whole text if the comment is
not closed. -/
def skipBlock (whole : List Char) : List Char → List Char
  | [] => whole
  | c :: t =>
    if c = '\x00' then whole
    else if c = '*' then
      match t with
      | [] => whole
      | d :: u => if d = '/' then skipTrivia u else skipBlock whole (d :: u)
    else skipBlock whole t

end

mutual

/-- Skipping never adds to a text. -/
theorem skipTrivia_length_le (t : List Char) : (skipTrivia t).length ≤ t.length := by
  cases t with
  | nil => simp [skipTrivia]
  | cons c t =>
    rw [skipTrivia.eq_def]
    simp only
    split
    · exact Nat.le_succ_of_le (skipTrivia_length_le t)
    · split
      · exact Nat.le_succ_of_le (skipLine_length_le t)
      · split
        · cases t with
          | nil => simp
          | cons d u =>
            simp only
            split
            · have := skipLine_length_le u
              simp only [List.length_cons]
              omega
            · split
              · have := skipBlock_length_le (c :: d :: u) u
                simp only [List.length_cons] at this ⊢
                omega
              · simp
        · simp

/-- What follows a line comment is no longer than what follows its opening. -/
theorem skipLine_length_le (t : List Char) : (skipLine t).length ≤ t.length := by
  cases t with
  | nil => simp [skipLine]
  | cons c t =>
    rw [skipLine]
    split
    · exact Nat.le_succ_of_le (skipTrivia_length_le t)
    · split
      · simp
      · exact Nat.le_succ_of_le (skipLine_length_le t)

/-- What follows a block comment is no longer than the text it is looked for in, or than the whole.
-/
theorem skipBlock_length_le (whole t : List Char) :
    (skipBlock whole t).length ≤ max whole.length t.length := by
  cases t with
  | nil => simp [skipBlock]
  | cons c t =>
    rw [skipBlock.eq_def]
    simp only
    split
    · exact Nat.le_max_left ..
    · split
      · cases t with
        | nil => exact Nat.le_max_left ..
        | cons d u =>
          simp only
          split
          · have := skipTrivia_length_le u
            simp only [List.length_cons]
            omega
          · have := skipBlock_length_le whole (d :: u)
            simp only [List.length_cons] at this ⊢
            omega
      · have := skipBlock_length_le whole t
        simp only [List.length_cons]
        omega

end

end HclQuery.Grammar
