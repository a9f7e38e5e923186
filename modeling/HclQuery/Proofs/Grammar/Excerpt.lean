import HclQuery.Grammar.Excerpt
import HclQuery.Proofs.Text.Extent

/-!
# The text shown around an error

The searches for a boundary pass none, so they end at the nearest one: within the text and at most
three bytes away from where they begin.  Between the boundaries that they find there is a text, and
it covers the error.

Main definitions:

- {lit}`Surrounds`: two boundaries around a span of bytes, not far from it.

Main results:

- Theorem {lit}`le_floorBoundary?`, {lit}`ceilBoundary?_le`: the searches end at the nearest
  boundary.
- Theorem {lit}`exists_surroundings`: every span of a text has surroundings, and they are on one
  line.
-/

namespace HclQuery.Grammar

open Text

/-! ## The searches -/

/-- The search downwards passes no boundary. -/
theorem le_floorBoundary? {t : List Char} {n a m : Nat} (h : floorBoundary? t n = some a)
    (hm : isBoundary t m = true) (hle : m ≤ n) : m ≤ a := by
  induction n with
  | zero => omega
  | succ n ih =>
    rw [floorBoundary?] at h
    split at h
    · obtain rfl := Option.some.inj h
      exact hle
    · next hnot =>
      have hne : m ≠ n + 1 := by
        rintro rfl
        exact hnot hm
      exact ih h (by omega)

/-- The search upwards passes no boundary. -/
theorem ceilBoundary?_le {t : List Char} {n b m : Nat} (h : ceilBoundary? t n = some b)
    (hm : isBoundary t m = true) (hle : n ≤ m) : b ≤ m := by
  fun_induction ceilBoundary? t n with
  | case1 n hn =>
    obtain rfl := Option.some.inj h
    exact hle
  | case2 n hn hlt ih =>
    have hne : n ≠ m := by
      rintro rfl
      exact hn hm
    exact ih h (by omega)
  | case3 n hn hlt => cases h

/-- The search downwards from an offset of the text takes at most three steps. -/
theorem floorBoundary?_near {t : List Char} {n : Nat} (h : n ≤ byteLength t) :
    ∃ a, floorBoundary? t n = some a ∧ isBoundary t a = true ∧ a ≤ n ∧ n ≤ a + 3 := by
  rcases exists_floorBoundary? t n with ⟨a, hfloor, ha, hle⟩
  rcases (exists_isBoundary_near h).1 with ⟨m, hm, hmn, hnear⟩
  have hma := le_floorBoundary? hfloor hm hmn
  exact ⟨a, hfloor, ha, hle, by omega⟩

/-- The search upwards from an offset of the text takes at most three steps. -/
theorem ceilBoundary?_near {t : List Char} {n : Nat} (h : n ≤ byteLength t) :
    ∃ b, ceilBoundary? t n = some b ∧ isBoundary t b = true ∧ n ≤ b ∧ b ≤ n + 3 := by
  rcases exists_ceilBoundary? h with ⟨b, hceil, hb, hge⟩
  rcases (exists_isBoundary_near h).2 with ⟨m, hm, hnm, hnear⟩
  have hbm := ceilBoundary?_le hceil hm hnm
  exact ⟨b, hceil, hb, hge, by omega⟩

/-! ## On one line -/

/-- An excerpt is shown on one line. -/
theorem newline_not_mem_oneLine (t : List Char) : '\n' ∉ oneLine t := by
  rw [oneLine, List.mem_flatMap]
  rintro ⟨c, -, hc⟩
  split at hc
  · simp at hc
  · next hne => exact hne (List.mem_singleton.1 hc).symm

/-! ## Around a span -/

/-- Two positions between characters of a text around the bytes from `first` up to `last`, at most
twenty bytes and the rest of a character away from them. -/
structure Surrounds (t : List Char) (first last a b : Nat) : Prop where
  valid_first : String.Pos.Raw.IsValid (String.ofList t) ⟨a⟩
  valid_last : String.Pos.Raw.IsValid (String.ofList t) ⟨b⟩
  covers_first : a ≤ first
  covers_last : last ≤ b
  near_first : first ≤ a + 23
  near_last : b ≤ last + 23
  inside : b ≤ byteLength t

/-- Around every span of a text, also one that begins or ends inside a character, both searches end
at a boundary, the bytes between these boundaries are a text, and what is shown is that text without
the blanks at its ends and without newlines. -/
theorem exists_surroundings (t : List Char) {first last : Nat} (hspan : first ≤ last)
    (hlast : last ≤ byteLength t) :
    ∃ a b s, floorBoundary? t (first - contextBytes) = some a ∧
      ceilBoundary? t (min (last + contextBytes) (byteLength t)) = some b ∧
      Surrounds t first last a b ∧
      slice? t a b = some s ∧ Utf8.encode s = ((Utf8.encode t).take b).drop a ∧
      surroundings t hspan = oneLine (Text.trim s) ∧ '\n' ∉ surroundings t hspan := by
  have hcontext : contextBytes = 20 := rfl
  obtain ⟨a, hfloor, ha, hle, hnear⟩ :=
    floorBoundary?_near (t := t) (n := first - contextBytes) (by omega)
  obtain ⟨b, hceil, hb, hge, hnear'⟩ :=
    ceilBoundary?_near (Nat.min_le_right (last + contextBytes) (byteLength t))
  rcases exists_slice? ha hb (by omega) with ⟨s, hslice, hbytes⟩
  have hshown : surroundings t hspan = oneLine (Text.trim s) := by
    simp [surroundings, surroundings?, hfloor, hceil, hslice]
  have hsurrounds : Surrounds t first last a b :=
    { valid_first := (isBoundary_iff_isValid t a).1 ha
      valid_last := (isBoundary_iff_isValid t b).1 hb
      covers_first := by omega
      covers_last := by omega
      near_first := by omega
      near_last := by omega
      inside := le_byteLength_of_isBoundary hb }
  have hnewline : '\n' ∉ surroundings t hspan := hshown ▸ newline_not_mem_oneLine _
  exact ⟨a, b, s, hfloor, hceil, hsurrounds, hslice, hbytes, hshown, hnewline⟩

/-- Letters of two bytes on two lines. -/
def accentedLines : List Char :=
  List.replicate 10 'é' ++ '\n' :: 'a' :: List.replicate 20 'é'

/-- The byte in the middle of a letter, with the bytes that are twenty away from it in the middle of
letters too: both searches go on to the next boundary. -/
theorem exists_surroundings_accentedLines :
    isBoundary accentedLines 25 = false ∧ floorBoundary? accentedLines 5 = some 4 ∧
      ceilBoundary? accentedLines 45 = some 46 ∧
      surroundings accentedLines (Nat.le_refl 25) =
        List.replicate 8 'é' ++ '\\' :: 'n' :: 'a' :: List.replicate 12 'é' := by
  obtain ⟨a, b, s, hfloor, hceil, -, hslice, -, hshown, -⟩ :=
    exists_surroundings accentedLines (Nat.le_refl 25) (by decide)
  have ha : floorBoundary? accentedLines 5 = some 4 := by decide
  have hb : ceilBoundary? accentedLines 45 = some 46 := by decide +kernel
  obtain rfl : 4 = a := Option.some.inj (ha.symm.trans hfloor)
  obtain rfl : 46 = b := Option.some.inj (hb.symm.trans hceil)
  have hs : slice? accentedLines 4 46 =
      some (List.replicate 8 'é' ++ '\n' :: 'a' :: List.replicate 12 'é') := by decide
  obtain rfl := Option.some.inj (hs.symm.trans hslice)
  exact ⟨by decide, ha, hb, hshown.trans (by decide)⟩

end HclQuery.Grammar
