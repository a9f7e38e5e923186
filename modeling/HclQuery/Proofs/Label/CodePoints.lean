import HclQuery.Proofs.Label
import Mathlib.Data.Nat.Digits.Defs

/-!
# Code points in labels

A literal is read from the left in pieces: characters that stand for themselves, escapes, and
markers that are doubled.  An escape of a code point takes as many characters as its marker asks
for, whatever they are.  It stands for a character just if these are hexadecimal digits of a scalar
value, where a plus sign may take the place of the first digit; every other one is kept as it is.

Main definitions:

- {lit}`Piece`: a stretch of a literal that is read at once.
- {lit}`pieces`: the pieces of a literal, from the left.
- {lit}`WellFormed`, {lit}`Signed`: the digits of a character, without and with a sign.

Main results:

- Theorem {lit}`unescape_eq_flatMap`: the value of a literal is that of its pieces.
- Theorem {lit}`flatMap_source`: the pieces make up the literal.
- Theorem {lit}`unescapeCode_eq_singleton_iff`: when an escape stands for a character.
- Theorem {lit}`unquote_codePoints`: the escapes in a literal.
-/

namespace HclQuery.Label

open Text (hexValue? hexRun? scalar?)

/-! ## Hexadecimal numbers -/

/-- Hexadecimal digits, of which the first counts most, that are the code point of a character. -/
def Denotes (digits : List Char) (c : Char) : Prop :=
  ∃ ns : List ℕ, digits.map hexValue? = ns.map some ∧ Nat.ofDigits 16 ns.reverse = c.toNat

/-- One more digit in front, with what stands before it. -/
theorem ofDigits_reverse_cons (value d : ℕ) (ns : List ℕ) :
    value * 16 ^ (d :: ns).length + Nat.ofDigits 16 (d :: ns).reverse =
      (value * 16 + d) * 16 ^ ns.length + Nat.ofDigits 16 ns.reverse := by
  rw [List.reverse_cons, Nat.ofDigits_append, List.length_reverse, Nat.ofDigits_singleton,
    List.length_cons]
  ring

/-- Hexadecimal digits have the value of the number that they spell, after that of those before
them. -/
theorem hexRun?_eq_some_iff {value n : ℕ} {digits : List Char} :
    hexRun? value digits = some n ↔ ∃ ns : List ℕ, digits.map hexValue? = ns.map some ∧
      value * 16 ^ ns.length + Nat.ofDigits 16 ns.reverse = n := by
  induction digits generalizing value with
  | nil => simp [hexRun?]
  | cons c digits ih =>
    rw [hexRun?, Option.bind_eq_some_iff]
    simp only [ih]
    constructor
    · rintro ⟨d, hd, ns, hns, rfl⟩
      exact ⟨d :: ns, by simp [hd, hns], ofDigits_reverse_cons value d ns⟩
    · rintro ⟨ns, hns, rfl⟩
      cases ns with
      | nil => simp at hns
      | cons d ns =>
        rw [List.map_cons, List.map_cons, List.cons.injEq] at hns
        exact ⟨d, hns.1, ns, hns.2, (ofDigits_reverse_cons value d ns).symm⟩

/-- The scalar values are the code points of the characters. -/
theorem scalar?_eq_some_iff {n : ℕ} {c : Char} : scalar? n = some c ↔ n = c.toNat := by
  have hvalid : c.toNat.isValidChar := c.valid
  rw [scalar?]
  constructor
  · intro h
    by_cases hn : n.isValidChar
    · rw [dif_pos hn] at h
      cases h
      rfl
    · rw [dif_neg hn] at h
      cases h
  · rintro rfl
    rw [dif_pos hvalid]
    rfl

/-- Digits are decoded to the character that they denote. -/
theorem bind_scalar?_eq_some_iff {digits : List Char} {c : Char} :
    (hexRun? 0 digits).bind scalar? = some c ↔ Denotes digits c := by
  simp [Option.bind_eq_some_iff, scalar?_eq_some_iff, hexRun?_eq_some_iff, Denotes]

/-- Digits with a plus sign denote nothing. -/
theorem not_denotes_plus {digits : List Char} {c : Char} : ¬ Denotes ('+' :: digits) c := by
  rintro ⟨ns, hns, -⟩
  cases ns with
  | nil => simp at hns
  | cons d ns =>
    rw [List.map_cons, List.map_cons, List.cons.injEq] at hns
    cases hns.1

/-- The number of more than one character is that of hexadecimal digits, behind a sign or not. -/
theorem bind_hexNumber?_eq_some_iff {digits : List Char} {c : Char} (h : 1 < digits.length) :
    (hexNumber? digits).bind scalar? = some c ↔
      Denotes digits c ∨ ∃ ds, digits = '+' :: ds ∧ Denotes ds c := by
  match digits with
  | [] => simp at h
  | [_] => simp at h
  | d :: e :: ds =>
    by_cases hd : d = '+'
    · subst hd
      have hnumber : hexNumber? ('+' :: e :: ds) = hexRun? 0 (e :: ds) := rfl
      rw [hnumber, bind_scalar?_eq_some_iff]
      simp [not_denotes_plus]
    · have hnumber : hexNumber? (d :: e :: ds) = hexRun? 0 (d :: e :: ds) := by
        rw [hexNumber?] <;> simp [hd]
      rw [hnumber, bind_scalar?_eq_some_iff]
      simp [hd]

/-! ## Escapes -/

/-- The characters after a marker are as many digits as it asks for, and denote a character. -/
def WellFormed (marker : Char) (digits : List Char) (c : Char) : Prop :=
  digits.length = escapeWidth marker ∧ Denotes digits c

/-- They do, but for a plus sign in the place of the first digit. -/
def Signed (marker : Char) (digits : List Char) (c : Char) : Prop :=
  digits.length = escapeWidth marker ∧ ∃ ds, digits = '+' :: ds ∧ Denotes ds c

/-- An escape is decoded to a character when it is well-formed, or signed, for that character. -/
theorem codePoint?_eq_some_iff {marker : Char} {digits : List Char} {c : Char} :
    codePoint? (escapeWidth marker) digits = some c ↔
      WellFormed marker digits c ∨ Signed marker digits c := by
  have hwidth : 1 < escapeWidth marker := by
    rw [escapeWidth]
    split <;> decide
  rw [codePoint?, WellFormed, Signed, ← and_or_left]
  by_cases h : digits.length = escapeWidth marker
  · rw [if_pos h, bind_hexNumber?_eq_some_iff (h ▸ hwidth)]
    simp [h]
  · simp [h]

/-- An escape stands for a character just if its digits denote one, with a sign or without. -/
theorem unescapeCode_eq_singleton_iff {marker : Char} {digits : List Char} {c : Char} :
    unescapeCode marker digits = [c] ↔ WellFormed marker digits c ∨ Signed marker digits c := by
  rw [← codePoint?_eq_some_iff, unescapeCode]
  cases codePoint? (escapeWidth marker) digits <;> simp

/-- Any other escape is kept. -/
theorem unescapeCode_eq_self_iff {marker : Char} {digits : List Char} :
    unescapeCode marker digits = '\\' :: marker :: digits ↔
      ∀ c, ¬ (WellFormed marker digits c ∨ Signed marker digits c) := by
  simp only [← codePoint?_eq_some_iff, unescapeCode]
  cases codePoint? (escapeWidth marker) digits <;> simp

/-- The first digit of a character that is well formed is no sign. -/
theorem WellFormed.not_signed {marker : Char} {digits : List Char} {c d : Char}
    (h : WellFormed marker digits c) : ¬ Signed marker digits d := by
  rintro ⟨-, ds, rfl, -⟩
  exact not_denotes_plus h.2

/-! ## Pieces -/

/-- A stretch of a literal that is read at once. -/
inductive Piece where
  /-- The escape of a code point: its marker and the characters that are taken for digits. -/
  | code (marker : Char) (digits : List Char)
  /-- A backslash in front of any other character. -/
  | letter (c : Char)
  /-- A backslash at the very end. -/
  | slash
  /-- A template marker that is written twice. -/
  | doubled (c : Char)
  /-- A character that stands for itself. -/
  | plain (c : Char)
  deriving DecidableEq, Repr

namespace Piece

/-- How a piece is written. -/
def source : Piece → List Char
  | code marker digits => '\\' :: marker :: digits
  | letter c => ['\\', c]
  | slash => ['\\']
  | doubled c => [c, c]
  | plain c => [c]

/-- What a piece stands for. -/
def value : Piece → List Char
  | code marker digits => unescapeCode marker digits
  | letter c => unescapeLetter c
  | slash => ['\\']
  | doubled c => [c]
  | plain c => [c]

end Piece

/-- The piece that a backslash begins, and what is left of the literal after it. -/
def slashed : List Char → Piece × List Char
  | [] => (.slash, [])
  | d :: t =>
    if d = 'u' ∨ d = 'U' then (.code d (t.take (escapeWidth d)), t.drop (escapeWidth d))
    else (.letter d, t)

/-- The piece that a character begins, and what is left of the literal after it. -/
def piece (c : Char) (t : List Char) : Piece × List Char :=
  if c = '\\' then slashed t
  else if isDoubled c t then (.doubled c, t.drop 1)
  else (.plain c, t)

/-- A marker that is doubled stands in front of the same marker. -/
theorem exists_of_isDoubled {c : Char} {t : List Char} (h : isDoubled c t = true) :
    isMarker c = true ∧ ∃ rest, t = c :: '{' :: rest := by
  rw [isDoubled, Bool.and_eq_true, beq_iff_eq] at h
  refine ⟨h.1, t.drop 2, ?_⟩
  calc t = t.take 2 ++ t.drop 2 := (List.take_append_drop 2 t).symm
    _ = c :: '{' :: t.drop 2 := by rw [h.2]; rfl

/-- A piece that a backslash begins is written in front of what is left. -/
theorem source_slashed (t : List Char) : (slashed t).1.source ++ (slashed t).2 = '\\' :: t := by
  cases t with
  | nil => rfl
  | cons d t =>
    rw [slashed]
    split <;> simp [Piece.source]

/-- A piece is written in front of what is left. -/
theorem source_piece (c : Char) (t : List Char) :
    (piece c t).1.source ++ (piece c t).2 = c :: t := by
  rw [piece]
  split
  · next hc => rw [source_slashed, hc]
  · split
    · next hdoubled =>
      rcases exists_of_isDoubled hdoubled with ⟨-, rest, rfl⟩
      rfl
    · rfl

theorem unescape_slashed (t : List Char) :
    unescape ('\\' :: t) = (slashed t).1.value ++ unescape (slashed t).2 := by
  cases t with
  | nil =>
    rw [unescape, if_pos rfl, slashed, unescape]
    rfl
  | cons d t =>
    rw [slashed]
    split
    · next hd =>
      rw [unescape, if_pos rfl]
      exact if_pos hd
    · next hd =>
      rw [not_or] at hd
      exact unescape_letter hd.1 hd.2 t

/-- Its value is that in front of the value of what is left. -/
theorem unescape_piece (c : Char) (t : List Char) :
    unescape (c :: t) = (piece c t).1.value ++ unescape (piece c t).2 := by
  rw [piece]
  split
  · next hc => rw [hc, unescape_slashed]
  · next hc =>
    split
    · next hdoubled =>
      rcases exists_of_isDoubled hdoubled with ⟨hmarker, rest, rfl⟩
      exact unescape_doubled hmarker rest
    · next hdoubled => exact unescape_plain hc (by simpa using hdoubled)

/-- A piece takes at least one character. -/
theorem length_piece_lt (c : Char) (t : List Char) : (piece c t).2.length < (c :: t).length := by
  have hlength : 0 < (piece c t).1.source.length := by
    cases (piece c t).1 <;> simp [Piece.source]
  rw [← source_piece c t, List.length_append]
  omega

/-- The pieces of a literal, from the left. -/
def pieces : List Char → List Piece
  | [] => []
  | c :: t => (piece c t).1 :: pieces (piece c t).2
termination_by t => t.length
decreasing_by exact length_piece_lt c t

/-- The pieces make up the literal. -/
theorem flatMap_source (t : List Char) : (pieces t).flatMap Piece.source = t := by
  fun_induction pieces t with
  | case1 => rfl
  | case2 c t ih => rw [List.flatMap_cons, ih, source_piece]

/-- The value of a literal is that of its pieces. -/
theorem unescape_eq_flatMap (t : List Char) : unescape t = (pieces t).flatMap Piece.value := by
  fun_induction pieces t with
  | case1 => rw [unescape, List.flatMap_nil]
  | case2 c t ih => rw [List.flatMap_cons, ← ih, unescape_piece]

/-- A piece that begins with a backslash and one of the two markers is a code point, and no other
piece has a backslash of its own. -/
def Piece.Proper : Piece → Prop
  | code marker digits =>
    (marker = 'u' ∨ marker = 'U') ∧ digits.length ≤ escapeWidth marker
  | letter c => c ≠ 'u' ∧ c ≠ 'U'
  | slash => True
  | doubled c => isMarker c = true
  | plain c => c ≠ '\\'

/-- A piece that a backslash begins is a proper one. -/
theorem proper_slashed (t : List Char) : (slashed t).1.Proper := by
  cases t with
  | nil => trivial
  | cons d t =>
    rw [slashed]
    split
    · next hd => exact ⟨hd, List.length_take_le ..⟩
    · next hd => exact not_or.1 hd

/-- A piece is a proper one. -/
theorem proper_piece (c : Char) (t : List Char) : (piece c t).1.Proper := by
  rw [piece]
  split
  · exact proper_slashed t
  · next hc =>
    split
    · next hdoubled => exact (exists_of_isDoubled hdoubled).1
    · exact hc

/-- Every piece of a literal is a proper one. -/
theorem proper_of_mem_pieces {t : List Char} : ∀ p ∈ pieces t, p.Proper := by
  fun_induction pieces t with
  | case1 => simp
  | case2 c t ih => exact List.forall_mem_cons.2 ⟨proper_piece c t, ih⟩

/-- An escape takes too few digits only where the literal ends. -/
theorem eq_nil_of_piece {c marker : Char} {t digits : List Char}
    (h : (piece c t).1 = .code marker digits) (hlength : digits.length < escapeWidth marker) :
    (piece c t).2 = [] := by
  rw [piece] at h ⊢
  split at h
  · next hc =>
    rw [if_pos hc]
    cases t with
    | nil => cases h
    | cons d t =>
      rw [slashed] at h ⊢
      split at h
      · next hd =>
        cases h
        rw [if_pos hd]
        rw [List.length_take] at hlength
        exact List.drop_eq_nil_of_le (by omega)
      · cases h
  · split at h <;> cases h

/-- An escape without enough digits is the last piece of its literal. -/
theorem eq_nil_of_pieces {t digits : List Char} {front back : List Piece} {marker : Char}
    (h : pieces t = front ++ .code marker digits :: back)
    (hlength : digits.length < escapeWidth marker) : back = [] := by
  fun_induction pieces t generalizing front with
  | case1 => simp at h
  | case2 c t ih =>
    cases front with
    | nil =>
      rw [List.nil_append, List.cons.injEq] at h
      rw [← h.2, eq_nil_of_piece h.1 hlength, pieces]
    | cons p front =>
      rw [List.cons_append, List.cons.injEq] at h
      exact ih h.2

/-! ## Literals -/

/-- The inside of a literal is all of it, or all but its quotes. -/
theorem inside_cases (t : List Char) : inside t = t ∨ t = '"' :: (inside t ++ ['"']) := by
  cases t with
  | nil => exact .inl rfl
  | cons c rest =>
    by_cases hc : c = '"'
    · subst hc
      by_cases hlast : rest.getLast? = some '"'
      · right
        rcases List.getLast?_eq_some_iff.1 hlast with ⟨body, rfl⟩
        rw [inside, if_pos hlast, List.dropLast_concat]
      · left
        rw [inside, if_neg hlast]
    · left
      rw [inside]
      simpa using hc

/-- A literal is read from the left in pieces that make up its inside, and its value is that of the
pieces one after the other.  A backslash with one of the two markers begins an escape, which takes
as many characters as the marker asks for, or all that are left.  It stands for a character just if
these are the digits of one, or would be with a digit for the plus sign in front; any other escape
is kept as it is written.  So the digits alone decide just if there is no such sign. -/
theorem unquote_codePoints (literal : String) :
    (inside literal.toList = literal.toList ∨
        literal.toList = '"' :: (inside literal.toList ++ ['"'])) ∧
      (pieces (inside literal.toList)).flatMap Piece.source = inside literal.toList ∧
      (unquote literal).toList = (pieces (inside literal.toList)).flatMap Piece.value ∧
      (∀ p ∈ pieces (inside literal.toList), p.Proper) ∧
      ∀ front marker digits back,
        pieces (inside literal.toList) = front ++ .code marker digits :: back →
          (digits.length < escapeWidth marker → back = []) ∧
          (∀ c, (Piece.code marker digits).value = [c] ↔
            WellFormed marker digits c ∨ Signed marker digits c) ∧
          ((Piece.code marker digits).value = (Piece.code marker digits).source ↔
            ∀ c, ¬ (WellFormed marker digits c ∨ Signed marker digits c)) ∧
          ((∀ c, (Piece.code marker digits).value = [c] ↔ WellFormed marker digits c) ↔
            ∀ c, ¬ Signed marker digits c) := by
  refine ⟨inside_cases _, flatMap_source _, ?_, proper_of_mem_pieces, ?_⟩
  · rw [unquote, String.toList_ofList, unescape_eq_flatMap]
  · intro front marker digits back h
    refine ⟨eq_nil_of_pieces h, fun c => unescapeCode_eq_singleton_iff,
      unescapeCode_eq_self_iff, ?_⟩
    simp only [Piece.value, unescapeCode_eq_singleton_iff]
    constructor
    · intro hwell c hsigned
      exact ((hwell c).1 (.inr hsigned)).not_signed hsigned
    · intro hsigned c
      exact or_iff_left (hsigned c)

/-- A literal with an escape of which the first digit is a plus sign. -/
def signedEscape : String := "\"\\u+041\""

/-- It is read as the character of the other three digits, although a plus sign is no digit. -/
theorem not_unquote_codePoints :
    unquote signedEscape = "A" ∧
      pieces (inside signedEscape.toList) = [.code 'u' ['+', '0', '4', '1']] ∧
      ¬ ∀ (literal : String) (marker : Char) (digits : List Char),
        .code marker digits ∈ pieces (inside literal.toList) →
        ∀ c, (Piece.code marker digits).value = [c] ↔ WellFormed marker digits c := by
  have hinside : inside signedEscape.toList = ['\\', 'u', '+', '0', '4', '1'] := by decide
  have hpieces : pieces (inside signedEscape.toList) = [.code 'u' ['+', '0', '4', '1']] := by
    rw [hinside]
    simp [pieces, piece, slashed, escapeWidth]
  have hvalue : (Piece.code 'u' ['+', '0', '4', '1']).value = ['A'] := by decide
  refine ⟨?_, hpieces, ?_⟩
  · rw [unquote, unescape_eq_flatMap, hpieces]
    decide
  · intro h
    have hmem : .code 'u' ['+', '0', '4', '1'] ∈ pieces (inside signedEscape.toList) := by
      rw [hpieces]
      exact List.mem_singleton_self _
    exact not_denotes_plus ((h signedEscape _ _ hmem 'A').1 hvalue).2

end HclQuery.Label
