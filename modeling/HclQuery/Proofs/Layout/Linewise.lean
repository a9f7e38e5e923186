import HclQuery.Proofs.Layout.Indentation

/-!
# Re-indenting line by line

Re-indenting writes one line for each line of a value, with the same text between the blanks at its
ends.  No line is joined to another, divided or dropped, so what is to be known of a written value
can be read off its lines one by one.

Main definitions:

- {lit}`scanners`: the scanner in front of each line of a value.
- {lit}`Kept`: what stays of a line when it is written.

Main results:

- Theorem {lit}`kept_continuation`: what stays of one line.
- Theorem {lit}`reindent_linewise`: what stays of all lines, and of the ends of a value.
-/

namespace HclQuery.Layout

open Text

/-- The scanner in front of each line of a value. -/
def scanners (raw : List Char) : List Scanner :=
  .initial :: lineStates raw

/-- What stays of the line `l` when it is written as `m`, with the scanner `s` in front of it. -/
structure Kept (s : Scanner) (l m : List Char) : Prop where
  text : trim m = trim l
  verbatim : s.verbatim = true → m = l
  ends : s.verbatim = false → EndsVisible m

/-- The first line only loses the blanks at its end. -/
theorem kept_trimEnd (l : List Char) : Kept .initial l (trimEnd l) where
  text := trim_trimEnd l
  verbatim := by
    intro h
    cases h
  ends := fun _ => endsVisible_trimEnd l

/-- What stays of a line after the first. -/
theorem kept_continuation (depth : Nat) (s : Scanner) (l : List Char) :
    Kept s l (continuation depth s l) where
  text := trim_continuation depth s l
  verbatim := fun h => continuation_of_verbatim h depth l
  ends := by
    intro h
    rcases continuation_cases depth s l with ⟨hverbatim, -⟩ | ⟨-, -, hline⟩ | ⟨-, hl, hline⟩
    · rw [h] at hverbatim
      cases hverbatim
    · rw [hline]
      exact nofun
    · rw [hline]
      exact (trimmed_trim l).ends.append hl _

/-- A value is written with as many lines as it has, each of them with the same text: as it is if it
begins in a heredoc or in a block comment, and else without blanks at its end.  The whole has no
blanks at its ends. -/
theorem reindent_linewise (depth : Nat) (raw : List Char) :
    (lines (reindent depth raw)).length = (lines (trim raw)).length ∧
      Trimmed (reindent depth raw) ∧
      ∀ (i : Nat) (l : List Char), (lines (trim raw))[i]? = some l →
        ∃ s m, (scanners raw)[i]? = some s ∧ (lines (reindent depth raw))[i]? = some m ∧
          Kept s l m := by
  refine ⟨?_, trimmed_reindent depth raw, ?_⟩
  · rw [lines_reindent, length_reindentLines]
  · intro i l hl
    cases i with
    | zero =>
      obtain ⟨first, rest, hlines⟩ := exists_lines (trim raw)
      rw [hlines] at hl
      obtain rfl : first = l := Option.some.inj hl
      refine ⟨.initial, trimEnd first, rfl, ?_, kept_trimEnd first⟩
      rw [lines_reindent, hlines]
      rfl
    | succ i =>
      rcases exists_lineState depth raw hl with ⟨s, hs, hline⟩
      exact ⟨s, continuation depth s l, hs, hline, kept_continuation depth s l⟩

/-- A list over several lines, with a comment over three of them. -/
def commentedList : List Char :=
  ['[', ' ', '\n', ' ', '/', '*', ' ', '\n', ' ', 'a', ' ', '\n', ' ', '*', '/', '1', '\n', ']']

/-- The line in the comment keeps its blanks. -/
theorem reindent_linewise_commentedList :
    (lines (trim commentedList))[2]? = some [' ', 'a', ' '] ∧
      (scanners commentedList)[2]? = some ⟨[.bracket], .comment⟩ ∧
      (lines (reindent 1 commentedList))[2]? = some [' ', 'a', ' '] := by
  have hl : (lines (trim commentedList))[2]? = some [' ', 'a', ' '] := by decide
  have hstate : (scanners commentedList)[2]? = some ⟨[.bracket], .comment⟩ := by decide
  rcases (reindent_linewise 1 commentedList).2.2 2 _ hl with ⟨s, m, hs, hm, hkept⟩
  obtain rfl : _ = s := Option.some.inj (hstate.symm.trans hs)
  rw [hkept.verbatim rfl] at hm
  exact ⟨hl, hstate, hm⟩

end HclQuery.Layout
