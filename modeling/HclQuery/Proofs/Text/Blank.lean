import HclQuery.Text.Blank
import HclQuery.Text.CharClass

/-!
# The blank characters one by one

There are few blank characters, so what holds of each of them holds of all.

Main results:

- Theorem {lit}`of_isBlank`: what holds of the blank characters one by one.
- Theorem {lit}`isBlank_idContinue`: no blank character stands in an identifier.
-/

namespace HclQuery.Text

/-- The ranges of the blank characters. -/
def blankRanges : List (Nat × Nat) :=
  [(9, 13), (0x20, 0x20), (0x85, 0x85), (0xa0, 0xa0), (0x1680, 0x1680), (0x2000, 0x200a),
    (0x2028, 0x2029), (0x202f, 0x202f), (0x205f, 0x205f), (0x3000, 0x3000)]

/-- A blank is in the ranges of blanks. -/
theorem inRanges_blankRanges {c : Char} (h : isBlank c = true) : inRanges blankRanges c = true := by
  simp only [isBlank, Bool.or_eq_true, Bool.and_eq_true, decide_eq_true_eq, beq_iff_eq] at h
  simp only [inRanges, blankRanges, List.any_cons, List.any_nil, Bool.or_false, Bool.or_eq_true,
    Bool.and_eq_true, decide_eq_true_eq]
  omega

/-- No range of the one table meets a range of the other. -/
def disjoint (rs ss : List (Nat × Nat)) : Bool :=
  rs.all fun a => ss.all fun b => a.2.blt b.1 || b.2.blt a.1

/-- A character in ranges is not in ranges disjoint from them. -/
theorem inRanges_of_disjoint {rs ss : List (Nat × Nat)} (h : disjoint rs ss = true) {c : Char}
    (hc : inRanges rs c = true) : inRanges ss c = false := by
  rcases List.any_eq_true.1 hc with ⟨a, ha, hin⟩
  rw [inRanges, List.any_eq_false]
  intro b hb
  have hab := List.all_eq_true.1 (List.all_eq_true.1 h a ha) b hb
  simp only [Bool.or_eq_true, Nat.blt_eq] at hab
  simp only [Bool.and_eq_true, decide_eq_true_eq] at hin ⊢
  omega

/-- A table that no blank character is in. -/
theorem inRanges_of_isBlank {ss : List (Nat × Nat)} (h : disjoint blankRanges ss = true) {c : Char}
    (hc : isBlank c = true) : inRanges ss c = false :=
  inRanges_of_disjoint h (inRanges_blankRanges hc)

/-- What holds of the blank characters one by one. -/
theorem of_isBlank {p : Char → Bool}
    (hp : blankRanges.all (fun r =>
      (List.range' r.1 (r.2 + 1 - r.1)).all fun n => p (Char.ofNat n)) = true) {c : Char} (h : isBlank c = true) : p c = true := by
  rcases List.any_eq_true.1 (inRanges_blankRanges h) with ⟨r, hr, hin⟩
  simp only [Bool.and_eq_true, decide_eq_true_eq] at hin
  have hmem : c.toNat ∈ List.range' r.1 (r.2 + 1 - r.1) := by
    rw [List.mem_range'_1]
    omega
  have hc := List.all_eq_true.1 (List.all_eq_true.1 hp r hr) c.toNat hmem
  rw [Char.ofNat_toNat] at hc
  exact hc

/-- A blank is no letter or digit of ASCII. -/
theorem isBlank_isAlphanum {c : Char} (h : isBlank c = true) : c.isAlphanum = false := by
  have hnot := of_isBlank (p := fun c => !c.isAlphanum) (by decide) h
  simpa using hnot

/-- No table of characters that words are made of meets the blank characters. -/
theorem disjoint_blankRanges :
    disjoint blankRanges Unicode.idStartRanges = true ∧
      disjoint blankRanges Unicode.idContinueRanges = true ∧
      disjoint blankRanges Unicode.alphabeticRanges = true ∧
      disjoint blankRanges Unicode.numericRanges = true := by
  decide +kernel

/-- A blank begins no identifier. -/
theorem isBlank_idStart {c : Char} (h : isBlank c = true) : isIdStart c = false := by
  have htable : inRanges Unicode.idStartRanges c = false :=
    inRanges_of_isBlank disjoint_blankRanges.1 h
  have halpha : c.isAlpha = false := by
    have halphanum := isBlank_isAlphanum h
    rw [Char.isAlphanum, Bool.or_eq_false_iff] at halphanum
    exact halphanum.1
  rw [isIdStart, halpha, htable, ite_self]

/-- No blank character stands in an identifier. -/
theorem isBlank_idContinue {c : Char} (h : isBlank c = true) : isIdContinue c = false := by
  have htable : inRanges Unicode.idContinueRanges c = false :=
    inRanges_of_isBlank disjoint_blankRanges.2.1 h
  have hne : (c == '_') = false := by
    have hnot := of_isBlank (p := fun c => !(c == '_')) (by decide) h
    simpa using hnot
  rw [isIdContinue, isBlank_isAlphanum h, hne, htable, Bool.or_self, ite_self]

/-- A blank is no letter or digit. -/
theorem isBlank_alphanumeric {c : Char} (h : isBlank c = true) : isAlphanumeric c = false := by
  have halphabetic : inRanges Unicode.alphabeticRanges c = false :=
    inRanges_of_isBlank disjoint_blankRanges.2.2.1 h
  have hnumeric : inRanges Unicode.numericRanges c = false :=
    inRanges_of_isBlank disjoint_blankRanges.2.2.2 h
  rw [isAlphanumeric, isBlank_isAlphanum h, halphabetic, hnumeric, Bool.or_self, ite_self]

end HclQuery.Text
