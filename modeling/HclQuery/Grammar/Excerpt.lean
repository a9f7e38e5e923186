import HclQuery.Text.Blank
import HclQuery.Text.Extent

/-!
# Grammar: the surroundings of an error

An error is shown with up to twenty bytes of text on either side, widened so that no character is
cut, on one line.  The boundaries of that text are searched for byte by byte, away from the error,
and a search that leaves the text finds none.

Main definitions:

- {lit}`floorBoundary?`, {lit}`ceilBoundary?`: the searches for the boundaries next to an offset.
- {lit}`surroundings?`: the text around a span of bytes.

Main results:

- Theorem {lit}`isSome_surroundings?`: there is a text around every span.
-/

namespace HclQuery.Grammar

open Text

/-! ## The searches -/

/-- The first boundary from a byte offset downwards; none if there is none down to zero. -/
def floorBoundary? (t : List Char) : Nat → Option Nat
  | 0 => if isBoundary t 0 then some 0 else none
  | n + 1 => if isBoundary t (n + 1) then some (n + 1) else floorBoundary? t n

/-- The first boundary from a byte offset upwards; none if there is none up to the end. -/
def ceilBoundary? (t : List Char) (n : Nat) : Option Nat :=
  if isBoundary t n then some n
  else if n < byteLength t then ceilBoundary? t (n + 1)
  else none
termination_by byteLength t - n

/-- The search downwards ends at a boundary. -/
theorem exists_floorBoundary? (t : List Char) (n : Nat) :
    ∃ a, floorBoundary? t n = some a ∧ isBoundary t a = true ∧ a ≤ n := by
  induction n with
  | zero => exact ⟨0, by simp [floorBoundary?], isBoundary_zero t, Nat.le_refl 0⟩
  | succ n ih =>
    rw [floorBoundary?]
    split
    · next h => exact ⟨n + 1, rfl, h, Nat.le_refl _⟩
    · rcases ih with ⟨a, hfloor, ha, hle⟩
      exact ⟨a, hfloor, ha, Nat.le_succ_of_le hle⟩

/-- The search upwards from an offset of the text ends at a boundary. -/
theorem exists_ceilBoundary? {t : List Char} {n : Nat} (h : n ≤ byteLength t) :
    ∃ b, ceilBoundary? t n = some b ∧ isBoundary t b = true ∧ n ≤ b := by
  fun_induction ceilBoundary? t n with
  | case1 n hb => exact ⟨n, rfl, hb, Nat.le_refl n⟩
  | case2 n hb hlt ih =>
    rcases ih hlt with ⟨b, hceil, hboundary, hle⟩
    exact ⟨b, hceil, hboundary, Nat.le_of_succ_le hle⟩
  | case3 n hb hlt =>
    have hend : n = byteLength t := by omega
    rw [hend, isBoundary_byteLength] at hb
    exact absurd rfl hb

/-! ## The text around a span -/

/-- How many bytes are shown on either side of an error. -/
def contextBytes : Nat := 20

/-- The text on one line, with newlines written as escapes. -/
def oneLine (t : List Char) : List Char :=
  t.flatMap fun c => if c = '\n' then ['\\', 'n'] else [c]

/-- The text around the bytes from `first` up to `last`; none if a boundary is not found. -/
def surroundings? (t : List Char) (first last : Nat) : Option (List Char) := do
  let a ← floorBoundary? t (first - contextBytes)
  let b ← ceilBoundary? t (min (last + contextBytes) (byteLength t))
  let s ← slice? t a b
  return oneLine (Text.trim s)

/-- There is a text around every span. -/
theorem isSome_surroundings? (t : List Char) {first last : Nat} (h : first ≤ last) :
    (surroundings? t first last).isSome = true := by
  rcases exists_floorBoundary? t (first - contextBytes) with ⟨a, hfloor, ha, hle⟩
  obtain ⟨b, hceil, hb, hge⟩ :=
    exists_ceilBoundary? (Nat.min_le_right (last + contextBytes) (byteLength t))
  have hlength := le_byteLength_of_isBoundary ha
  have hab : a ≤ b := by omega
  simp [surroundings?, hfloor, hceil, slice?, hab, ha, hb]

/-- The text around the bytes from `first` up to `last`. -/
def surroundings (t : List Char) {first last : Nat} (h : first ≤ last) : List Char :=
  (surroundings? t first last).get (isSome_surroundings? t h)

end HclQuery.Grammar
