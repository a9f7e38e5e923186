/-!
# Text: extents in bytes

How many bytes a text takes, and the parts of a text before, after and between byte offsets.  Only
some offsets are boundaries: between others there is no text, as they cut a character.

Main definitions:

- {lit}`isBoundary`: the byte offsets that cut no character.
- {lit}`slice?`: the text between two boundaries.

Main results:

- Theorem {lit}`byteLength_append`: the bytes of two texts add up.
- Theorem {lit}`consumed_append`: the front of a text is what stands before the rest.
- Theorem {lit}`isBoundary_iff`: a boundary divides a text in two.
-/

namespace HclQuery.Text

/-- The number of bytes of a text. -/
def byteLength : List Char → Nat
  | [] => 0
  | c :: t => c.utf8Size + byteLength t

/-- The text from a byte offset on; a character that is cut is left out. -/
def dropBytes : List Char → Nat → List Char
  | [], _ => []
  | c :: t, n => if n = 0 then c :: t else dropBytes t (n - c.utf8Size)

/-- The text up to a byte offset; a character that is cut is left out. -/
def takeBytes : List Char → Nat → List Char
  | [], _ => []
  | c :: t, n => if c.utf8Size ≤ n then c :: takeBytes t (n - c.utf8Size) else []

/-- The front of `t`, given what is left after it. -/
def consumed (t rest : List Char) : List Char :=
  t.take (t.length - rest.length)

/-- A byte offset in front of a character of a text, or at the end of the text. -/
def isBoundary : List Char → Nat → Bool
  | [], n => n == 0
  | c :: t, n => n == 0 || (decide (c.utf8Size ≤ n) && isBoundary t (n - c.utf8Size))

/-- The text between two byte offsets; none if they are out of order or cut a character. -/
def slice? (t : List Char) (first last : Nat) : Option (List Char) :=
  if first ≤ last ∧ isBoundary t first = true ∧ isBoundary t last = true then
    some (takeBytes (dropBytes t first) (last - first))
  else none

/-- The bytes of two texts add up. -/
theorem byteLength_append (s t : List Char) :
    byteLength (s ++ t) = byteLength s + byteLength t := by
  induction s with
  | nil => simp [byteLength]
  | cons c s ih =>
    rw [List.cons_append, byteLength, byteLength, ih]
    omega

/-- The front of a text is what stands before the rest. -/
theorem consumed_append (s t : List Char) : consumed (s ++ t) t = s := by
  simp [consumed]

/-- A boundary divides a text in two. -/
theorem isBoundary_iff {t : List Char} {n : Nat} :
    isBoundary t n = true ↔ ∃ front back, t = front ++ back ∧ byteLength front = n := by
  induction t generalizing n with
  | nil =>
    simp only [isBoundary, beq_iff_eq]
    constructor
    · rintro rfl
      exact ⟨[], [], rfl, rfl⟩
    · rintro ⟨front, back, ht, rfl⟩
      rw [(List.append_eq_nil_iff.1 ht.symm).1]
      rfl
  | cons c t ih =>
    simp only [isBoundary, Bool.or_eq_true, beq_iff_eq, Bool.and_eq_true, decide_eq_true_eq, ih]
    constructor
    · rintro (rfl | ⟨hle, front, back, rfl, hlength⟩)
      · exact ⟨[], c :: t, rfl, rfl⟩
      · refine ⟨c :: front, back, rfl, ?_⟩
        rw [byteLength]
        omega
    · rintro ⟨front, back, ht, rfl⟩
      cases front with
      | nil => exact .inl rfl
      | cons d front =>
        obtain ⟨rfl, rfl⟩ := List.cons.inj ht
        refine .inr ⟨by rw [byteLength]; omega, front, back, rfl, ?_⟩
        rw [byteLength]
        omega

/-- Every text begins at a boundary. -/
@[simp]
theorem isBoundary_zero (t : List Char) : isBoundary t 0 = true :=
  isBoundary_iff.2 ⟨[], t, rfl, rfl⟩

/-- The end of a text is a boundary. -/
@[simp]
theorem isBoundary_byteLength (t : List Char) : isBoundary t (byteLength t) = true :=
  isBoundary_iff.2 ⟨t, [], (List.append_nil t).symm, rfl⟩

/-- No boundary lies beyond the end of a text. -/
theorem le_byteLength_of_isBoundary {t : List Char} {n : Nat} (h : isBoundary t n = true) :
    n ≤ byteLength t := by
  rcases isBoundary_iff.1 h with ⟨front, back, rfl, rfl⟩
  rw [byteLength_append]
  exact Nat.le_add_right ..

end HclQuery.Text
