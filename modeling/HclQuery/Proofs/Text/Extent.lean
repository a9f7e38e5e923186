import HclQuery.Proofs.Text.Utf8
import HclQuery.Text.Extent

/-!
# Boundaries between characters

A character takes at most four bytes, so next to every offset of a text there are boundaries at most
three bytes away, and between two boundaries there is a text.

Main results:

- Theorem {lit}`isBoundary_iff_isValid`: the boundaries are the valid positions of the string.
- Theorem {lit}`exists_isBoundary_near`: no offset is far from a boundary.
- Theorem {lit}`exists_slice?`: the text between two boundaries, with its bytes.
-/

namespace HclQuery.Text

/-! ## Boundaries -/

/-- After the front of a text there are the boundaries of the rest. -/
theorem isBoundary_append (front t : List Char) (n : Nat) :
    isBoundary (front ++ t) (byteLength front + n) = isBoundary t n := by
  induction front with
  | nil => rw [List.nil_append, byteLength, Nat.zero_add]
  | cons c front ih =>
    have hpos := c.utf8Size_pos
    have hne : c.utf8Size + byteLength front + n ≠ 0 := by omega
    have hle : c.utf8Size ≤ c.utf8Size + byteLength front + n := by omega
    rw [List.cons_append, isBoundary, byteLength, beq_false_of_ne hne, decide_eq_true hle,
      Bool.false_or, Bool.true_and, Nat.add_assoc, Nat.add_sub_cancel_left, ih]

/-- A string has the bytes of its characters. -/
theorem utf8ByteSize_ofList (t : List Char) : (String.ofList t).utf8ByteSize = byteLength t := by
  induction t with
  | nil => rfl
  | cons c t ih =>
    have hsplit : String.ofList (c :: t) = String.singleton c ++ String.ofList t := by
      rw [String.singleton_eq_ofList, ← String.ofList_append, List.singleton_append]
    rw [hsplit, String.utf8ByteSize_append, String.utf8ByteSize_singleton, ih, byteLength]

/-- The boundaries are the valid positions of the string: its end, and the places of the bytes that
a character begins with. -/
theorem isBoundary_iff_isValid (t : List Char) (n : Nat) :
    isBoundary t n = true ↔ String.Pos.Raw.IsValid (String.ofList t) ⟨n⟩ := by
  rw [isBoundary_iff, String.Pos.Raw.isValid_iff_exists_append]
  constructor
  · rintro ⟨front, back, rfl, rfl⟩
    refine ⟨String.ofList front, String.ofList back, String.ofList_append, ?_⟩
    rw [String.rawEndPos, utf8ByteSize_ofList]
  · rintro ⟨front, back, ht, hn⟩
    refine ⟨front.toList, back.toList, ?_, ?_⟩
    · rw [← String.toList_append, ← ht, String.toList_ofList]
    · rw [← utf8ByteSize_ofList, String.ofList_toList]
      exact (congrArg String.Pos.Raw.byteIdx hn).symm

/-- A boundary is never farther away than the end of the character that an offset is in. -/
theorem exists_isBoundary_near {t : List Char} {n : Nat} (h : n ≤ byteLength t) :
    (∃ a, isBoundary t a = true ∧ a ≤ n ∧ n ≤ a + 3) ∧
      ∃ b, isBoundary t b = true ∧ n ≤ b ∧ b ≤ n + 3 := by
  induction t generalizing n with
  | nil =>
    obtain rfl : n = 0 := Nat.le_zero.1 h
    exact ⟨⟨0, rfl, by omega, by omega⟩, 0, rfl, by omega, by omega⟩
  | cons c t ih =>
    have hsize := c.utf8Size_le_four
    have hend : isBoundary (c :: t) c.utf8Size = true :=
      isBoundary_iff.2 ⟨[c], t, rfl, rfl⟩
    rw [byteLength] at h
    by_cases hinside : n < c.utf8Size
    · -- The offset is in the first character, or in front of it.
      by_cases hzero : n = 0
      · subst hzero
        exact ⟨⟨0, isBoundary_zero _, by omega, by omega⟩, 0, isBoundary_zero _, by omega, by omega⟩
      · exact ⟨⟨0, isBoundary_zero _, by omega, by omega⟩, c.utf8Size, hend, by omega, by omega⟩
    · obtain ⟨⟨a, ha, hle, hnear⟩, b, hb, hge, hnear'⟩ := ih (n := n - c.utf8Size) (by omega)
      have hshift : ∀ m, isBoundary (c :: t) (c.utf8Size + m) = isBoundary t m :=
        isBoundary_append [c] t
      exact ⟨⟨c.utf8Size + a, (hshift a).trans ha, by omega, by omega⟩,
        c.utf8Size + b, (hshift b).trans hb, by omega, by omega⟩

/-! ## The text between two boundaries -/

/-- Dropping the bytes of what is in front leaves what follows. -/
theorem dropBytes_append (front t : List Char) : dropBytes (front ++ t) (byteLength front) = t := by
  induction front with
  | nil => cases t <;> simp [dropBytes, byteLength]
  | cons c front ih =>
    have hpos := c.utf8Size_pos
    rw [List.cons_append, dropBytes, byteLength, if_neg (by omega), Nat.add_sub_cancel_left, ih]

/-- Taking the bytes of what is in front leaves that. -/
theorem takeBytes_append (s back : List Char) : takeBytes (s ++ back) (byteLength s) = s := by
  induction s with
  | nil =>
    cases back with
    | nil => rfl
    | cons c back =>
      have hpos := c.utf8Size_pos
      rw [List.nil_append, takeBytes, byteLength, if_neg (by omega)]
  | cons c s ih =>
    rw [List.cons_append, takeBytes, byteLength, if_pos (by omega), Nat.add_sub_cancel_left, ih]

/-- The text between two boundaries. -/
theorem slice?_append (front s back : List Char) :
    slice? (front ++ (s ++ back)) (byteLength front) (byteLength (front ++ s)) = some s := by
  have hfirst : isBoundary (front ++ (s ++ back)) (byteLength front) = true :=
    isBoundary_iff.2 ⟨front, s ++ back, rfl, rfl⟩
  have hlast : isBoundary (front ++ (s ++ back)) (byteLength (front ++ s)) = true :=
    isBoundary_iff.2 ⟨front ++ s, back, (List.append_assoc ..).symm, rfl⟩
  have hlength := byteLength_append front s
  rw [slice?, if_pos ⟨by omega, hfirst, hlast⟩, dropBytes_append, hlength,
    Nat.add_sub_cancel_left, takeBytes_append]

/-- A text is encoded in the bytes of its characters. -/
theorem length_encode (t : List Char) : (Utf8.encode t).length = byteLength t := by
  induction t with
  | nil => rfl
  | cons c t ih =>
    rw [Utf8.encode_cons, List.length_append, String.length_utf8EncodeChar, ih, byteLength]

/-- Between two boundaries there is a text, and its bytes are those between them. -/
theorem exists_slice? {t : List Char} {a b : Nat} (ha : isBoundary t a = true)
    (hb : isBoundary t b = true) (hab : a ≤ b) :
    ∃ s, slice? t a b = some s ∧ Utf8.encode s = ((Utf8.encode t).take b).drop a := by
  rcases isBoundary_iff.1 ha with ⟨front, rest, rfl, rfl⟩
  obtain ⟨n, rfl⟩ := Nat.exists_eq_add_of_le hab
  rw [isBoundary_append] at hb
  rcases isBoundary_iff.1 hb with ⟨s, back, rfl, rfl⟩
  refine ⟨s, ?_, ?_⟩
  · rw [← byteLength_append, slice?_append]
  · rw [Utf8.encode_append, Utf8.encode_append, ← length_encode front, ← length_encode s,
      List.take_length_add_append, List.take_left, List.drop_left]

end HclQuery.Text
