import HclQuery.Json.Skip
import Mathlib.Data.List.DropRight

/-!
# JSON: the grammar

What a JSON text is, said without a reader: which bytes are the text of a value, and what is left
after them.  Blanks may stand in front of every token.  Bytes are the text of one value at most:
what strings and numbers take is what is skipped as such, and brackets and commas tell the rest.

Main definitions:

- {lit}`Value`: a JSON value.
- {lit}`Spells`: bytes begin with the text of a value.
- {lit}`IsText`: bytes are the text of a value.

Main results:

- Theorem {lit}`skipScalar_eq_ok_iff`: what is skipped without brackets is a value without them.
- Theorem {lit}`Spells.unique`: bytes begin with the text of one value at most, and it has one end.
-/

namespace HclQuery.Json

open Byte

/-! ## Strings and numbers -/

/-- Bytes begin with the inside of a string and its closing quote.  Any bytes may stand in a string
but control characters, and an escape is checked for its form alone. -/
inductive StringBody : (body s rest : List UInt8) → Prop where
  | close {r : List UInt8} : StringBody [] (quote :: r) r
  | plain {b : UInt8} {body s r : List UInt8} (hquote : b ≠ quote) (hslash : b ≠ backslash)
    (hcontrol : ¬b < 0x20) (h : StringBody body s r) : StringBody (b :: body) (b :: s) r
  | letter {b : UInt8} {body s r : List UInt8} (hb : (escapeLetter? b).isSome = true)
    (h : StringBody body s r) : StringBody (backslash :: b :: body) (backslash :: b :: s) r
  | code {a b c d : UInt8} {body s r : List UInt8} (ha : (hex? a).isSome = true)
    (hb : (hex? b).isSome = true) (hc : (hex? c).isSome = true) (hd : (hex? d).isSome = true)
    (h : StringBody body s r) :
    StringBody (backslash :: 0x75 :: a :: b :: c :: d :: body)
      (backslash :: 0x75 :: a :: b :: c :: d :: s) r

/-- Bytes begin with digits, of which all are taken. -/
structure Digits (s rest : List UInt8) : Prop where
  first : headIs isDigit s = true
  rest_eq : rest = s.dropWhile isDigit

/-- Bytes begin with the whole part of a number, which has no zero in front of other digits. -/
inductive Whole : (s rest : List UInt8) → Prop where
  | zero {r : List UInt8} (h : headIs isDigit r = false) : Whole (zero :: r) r
  | digits {b : UInt8} {r : List UInt8} (hzero : b ≠ zero) (hb : isDigit b = true) :
    Whole (b :: r) (r.dropWhile isDigit)

/-- Bytes begin with the fraction of a number, which may be missing. -/
inductive Fraction : (s rest : List UInt8) → Prop where
  | missing {s : List UInt8} (h : headIs (· == point) s = false) : Fraction s s
  | digits {s r : List UInt8} (h : Digits s r) : Fraction (point :: s) r

/-- Bytes begin with the exponent of a number, which may be missing. -/
inductive Exponent : (s rest : List UInt8) → Prop where
  | missing {s : List UInt8} (h : headIs isExponent s = false) : Exponent s s
  | unsigned {e : UInt8} {s r : List UInt8} (he : isExponent e = true) (h : Digits s r) :
    Exponent (e :: s) r
  | signed {e b : UInt8} {s r : List UInt8} (he : isExponent e = true)
    (hb : b = plus ∨ b = minus) (h : Digits s r) : Exponent (e :: b :: s) r

/-- Bytes begin with a number without its minus sign. -/
inductive Unsigned : (s rest : List UInt8) → Prop where
  | mk {s t u r : List UInt8} (hwhole : Whole s t) (hfraction : Fraction t u)
    (hexponent : Exponent u r) : Unsigned s r

/-! ## Values -/

/-- A JSON value.  Strings and keys are kept as they are written; what number a number is does not
matter. -/
inductive Value where
  | null
  | boolean (b : Bool)
  | number
  | string (body : List UInt8)
  | list (items : List Value)
  | object (members : List (List UInt8 × Value))

/-- Bytes begin with a value that is no list or object, with no blanks in front of it. -/
inductive Scalar : Value → (s rest : List UInt8) → Prop where
  | null {r : List UInt8} : Scalar .null (0x6e :: (nullRest ++ r)) r
  | true_ {r : List UInt8} : Scalar (.boolean true) (0x74 :: (trueRest ++ r)) r
  | false_ {r : List UInt8} : Scalar (.boolean false) (0x66 :: (falseRest ++ r)) r
  | negative {s r : List UInt8} (h : Unsigned s r) : Scalar .number (minus :: s) r
  | number {s r : List UInt8} (h : Unsigned s r) : Scalar .number s r
  | string {body s r : List UInt8} (h : StringBody body s r) :
    Scalar (.string body) (quote :: s) r

/-- What stands in front of an item: blanks, with a comma after them unless it is the first one. -/
def Separated : (first : Bool) → (s rest : List UInt8) → Prop
  | true, s, rest => rest = skipSpace s
  | false, s, rest => skipSpace s = comma :: rest

/-- Bytes begin with a key and the colon after it. -/
def Key (body s rest : List UInt8) : Prop :=
  ∃ t u, skipSpace s = quote :: t ∧ StringBody body t u ∧ skipSpace u = colon :: rest

mutual

/-- Bytes begin with the text of a value, perhaps after blanks. -/
inductive Spells : Value → (s rest : List UInt8) → Prop where
  | scalar {v : Value} {s r : List UInt8} (h : Scalar v (skipSpace s) r) : Spells v s r
  | list {vs : List Value} {s t r : List UInt8} (ht : skipSpace s = openBracket :: t)
    (h : Items true vs t r) : Spells (.list vs) s r
  | object {ms : List (List UInt8 × Value)} {s t r : List UInt8}
    (ht : skipSpace s = openBrace :: t) (h : Members true ms t r) : Spells (.object ms) s r

/-- Bytes begin with the items of a list and its closing bracket. -/
inductive Items : (first : Bool) → List Value → (s rest : List UInt8) → Prop where
  | close {first : Bool} {s r : List UInt8} (h : skipSpace s = closeBracket :: r) :
    Items first [] s r
  | item {first : Bool} {v : Value} {vs : List Value} {s t u r : List UInt8}
    (hs : Separated first s t) (hv : Spells v t u) (h : Items false vs u r) :
    Items first (v :: vs) s r

/-- Bytes begin with the members of an object and its closing brace. -/
inductive Members : (first : Bool) → List (List UInt8 × Value) → (s rest : List UInt8) → Prop where
  | close {first : Bool} {s r : List UInt8} (h : skipSpace s = closeBrace :: r) :
    Members first [] s r
  | member {first : Bool} {body : List UInt8} {v : Value} {ms : List (List UInt8 × Value)}
    {s t u w r : List UInt8} (hs : Separated first s t) (hkey : Key body t u) (hv : Spells v u w)
    (h : Members false ms w r) : Members first ((body, v) :: ms) s r

end

/-- Bytes are the text of a value, between any blanks. -/
def IsText (v : Value) (s : List UInt8) : Prop :=
  ∃ r, Spells v s r ∧ skipSpace r = []

/-! ## Strings and numbers that are skipped -/

/-- Four hexadecimal digits. -/
def HexDigits (p : List UInt8) : Prop :=
  ∃ a b c d, p = [a, b, c, d] ∧ (hex? a).isSome = true ∧ (hex? b).isSome = true ∧
    (hex? c).isSome = true ∧ (hex? d).isSome = true

/-- An escape by code in front of the rest of a string. -/
theorem HexDigits.stringBody {p body s r : List UInt8} (hp : HexDigits p)
    (h : StringBody body s r) :
    StringBody (backslash :: 0x75 :: (p ++ body)) (backslash :: 0x75 :: (p ++ s)) r := by
  rcases hp with ⟨a, b, c, d, rfl, ha, hb, hc, hd⟩
  exact .code ha hb hc hd h

/-- Four digits are read as their number, whatever follows them. -/
theorem HexDigits.hexEscape {p : List UInt8} (hp : HexDigits p) :
    ∃ n, ∀ r, Json.hexEscape (p ++ r) = .ok (n, r) := by
  rcases hp with ⟨a, b, c, d, rfl, ha, hb, hc, hd⟩
  rcases Option.isSome_iff_exists.1 ha with ⟨x, hx⟩
  rcases Option.isSome_iff_exists.1 hb with ⟨y, hy⟩
  rcases Option.isSome_iff_exists.1 hc with ⟨z, hz⟩
  rcases Option.isSome_iff_exists.1 hd with ⟨w, hw⟩
  refine ⟨((x * 16 + y) * 16 + z) * 16 + w, fun r => ?_⟩
  simp only [List.cons_append, List.nil_append, Json.hexEscape, hx, hy, hz, hw]

/-- What is read as four digits begins with them. -/
theorem hexEscape_eq_ok {s r : List UInt8} {n : Nat} (h : hexEscape s = .ok (n, r)) :
    ∃ p, HexDigits p ∧ s = p ++ r := by
  unfold hexEscape at h
  split at h
  · next a b c d t =>
    split at h
    · next ha hb hc hd =>
      rw [Except.ok.injEq, Prod.mk.injEq] at h
      rcases h with ⟨-, rfl⟩
      exact ⟨[a, b, c, d],
        ⟨a, b, c, d, rfl, by simp [ha], by simp [hb], by simp [hc], by simp [hd]⟩, rfl⟩
    · cases h
  · cases h

/-- What is skipped as an escape is one, without its backslash. -/
theorem skipEscape_eq_ok_iff {s r : List UInt8} :
    skipEscape s = .ok r ↔
      (∃ b, s = b :: r ∧ (escapeLetter? b).isSome = true) ∨
        ∃ p, HexDigits p ∧ s = 0x75 :: (p ++ r) := by
  constructor
  · intro h
    unfold skipEscape at h
    split at h
    · cases h
    · next b u =>
      split at h
      · next hletter =>
        cases h
        exact .inl ⟨b, rfl, hletter⟩
      · split at h
        · next hcode =>
          subst hcode
          rcases hx : hexEscape u with f | ⟨n, t⟩
          · rw [hx] at h
            cases h
          · rw [hx] at h
            cases h
            rcases hexEscape_eq_ok hx with ⟨p, hp, rfl⟩
            exact .inr ⟨p, hp, rfl⟩
        · cases h
  · rintro (⟨b, rfl, hletter⟩ | ⟨p, hp, rfl⟩)
    · simp only [skipEscape, hletter, if_true]
    · have hletter : (escapeLetter? 0x75).isSome = false := rfl
      rcases hp.hexEscape with ⟨n, hn⟩
      simp only [skipEscape, hletter, Bool.false_eq_true, if_false, if_true, hn, Except.map]

/-- After an escape, a string goes on. -/
theorem skipString_slash {s t : List UInt8} (h : skipEscape s = .ok t) :
    skipString (backslash :: s) = skipString t := by
  rw [skipString, if_neg (by decide), if_pos rfl]
  split
  · next heq =>
    rw [h] at heq
    cases heq
  · next heq =>
    rw [h] at heq
    cases heq
    rfl

/-- What is skipped after a quote is the inside of a string with its closing quote. -/
theorem skipString_eq_ok_iff {s r : List UInt8} :
    skipString s = .ok r ↔ ∃ body, StringBody body s r := by
  constructor
  · intro h
    fun_induction skipString s with
    | case1 => cases h
    | case2 s =>
      cases h
      exact ⟨[], .close⟩
    | case3 => cases h
    | case4 s t hesc _ ih =>
      rcases ih h with ⟨body, hbody⟩
      rcases skipEscape_eq_ok_iff.1 hesc with ⟨b, rfl, hb⟩ | ⟨p, hp, rfl⟩
      · exact ⟨_, .letter hb hbody⟩
      · exact ⟨_, hp.stringBody hbody⟩
    | case5 => cases h
    | case6 b s hquote hslash hcontrol ih =>
      rcases ih h with ⟨body, hbody⟩
      exact ⟨_, .plain hquote hslash hcontrol hbody⟩
  · rintro ⟨body, h⟩
    induction h with
    | close => rw [skipString, if_pos rfl]
    | plain hquote hslash hcontrol h ih =>
      rw [skipString, if_neg hquote, if_neg hslash, if_neg hcontrol, ih]
    | letter hb h ih => rw [skipString_slash (skipEscape_eq_ok_iff.2 (.inl ⟨_, rfl, hb⟩)), ih]
    | code ha hb hc hd h ih =>
      have hdigits : HexDigits [_, _, _, _] := ⟨_, _, _, _, rfl, ha, hb, hc, hd⟩
      exact (skipString_slash (skipEscape_eq_ok_iff.2 (.inr ⟨_, hdigits, rfl⟩))).trans ih

/-- A string has one end. -/
theorem StringBody.unique {body body' s r r' : List UInt8} (h : StringBody body s r)
    (h' : StringBody body' s r') : body = body' ∧ r = r' := by
  induction h generalizing body' with
  | close =>
    cases h' with
    | close => exact ⟨rfl, rfl⟩
    | plain hquote => exact absurd rfl hquote
  | plain hquote hslash hcontrol h ih =>
    cases h' with
    | close => exact absurd rfl hquote
    | plain _ _ _ h' =>
      rcases ih h' with ⟨rfl, rfl⟩
      exact ⟨rfl, rfl⟩
    | letter => exact absurd rfl hslash
    | code => exact absurd rfl hslash
  | letter hb h ih =>
    cases h' with
    | plain _ hslash => exact absurd rfl hslash
    | letter _ h' =>
      rcases ih h' with ⟨rfl, rfl⟩
      exact ⟨rfl, rfl⟩
    | code => cases hb
  | code ha hb hc hd h ih =>
    cases h' with
    | plain _ hslash => exact absurd rfl hslash
    | letter hb _ => cases hb
    | code _ _ _ _ h' =>
      rcases ih h' with ⟨rfl, rfl⟩
      exact ⟨rfl, rfl⟩

/-- A string takes at least its closing quote. -/
theorem StringBody.length_lt {body s r : List UInt8} (h : StringBody body s r) :
    r.length < s.length := by
  induction h with
  | close => simp
  | plain _ _ _ _ ih | letter _ _ ih | code _ _ _ _ _ ih =>
    simp only [List.length_cons]
    omega

/-- A class is at the front of bytes when the first one is in it. -/
theorem headIs_eq_true_iff {p : UInt8 → Bool} {s : List UInt8} :
    headIs p s = true ↔ ∃ b t, s = b :: t ∧ p b = true := by
  cases s with
  | nil => simp [headIs]
  | cons b t => simp [headIs]

/-- A digit and those after it are read as digits, and nothing else is. -/
theorem digits_iff {s r : List UInt8} :
    (if headIs isDigit s = true then Except.ok (s.dropWhile isDigit)
      else .error ⟨.invalidNumber, s.tail⟩ : Except Fault (List UInt8)) = .ok r ↔ Digits s r := by
  by_cases hs : headIs isDigit s = true
  · rw [if_pos hs]
    exact ⟨fun h => by cases h; exact ⟨hs, rfl⟩, fun h => by rw [h.rest_eq]⟩
  · rw [if_neg hs]
    exact ⟨nofun, fun h => absurd h.first hs⟩

/-- What is skipped after the letter of an exponent is digits, perhaps after a sign. -/
theorem skipExponent_eq_ok_iff {s r : List UInt8} :
    skipExponent s = .ok r ↔
      Digits s r ∨ ∃ b t, s = b :: t ∧ (b = plus ∨ b = minus) ∧ Digits t r := by
  rw [skipExponent]
  by_cases hsign : headIs (fun b => b == plus || b == minus) s = true
  · rcases headIs_eq_true_iff.1 hsign with ⟨b, t, rfl, hb⟩
    have hcase : b = plus ∨ b = minus := by simpa using hb
    simp only [hsign, if_true, List.tail_cons]
    constructor
    · intro h
      exact .inr ⟨b, t, rfl, hcase, digits_iff.1 h⟩
    · rintro (h | ⟨b', t', he, -, h⟩)
      · have hdigit : isDigit b = true := h.first
        rcases hcase with rfl | rfl <;> cases hdigit
      · cases he
        exact digits_iff.2 h
  · simp only [hsign, Bool.false_eq_true, if_false]
    constructor
    · intro h
      exact .inl (digits_iff.1 h)
    · rintro (h | ⟨b, t, rfl, hb, -⟩)
      · exact digits_iff.2 h
      · exact absurd (by rcases hb with rfl | rfl <;> rfl) hsign

/-- What is skipped at the end of a number is an exponent. -/
theorem skipOptionalExponent_eq_ok_iff {s r : List UInt8} :
    skipOptionalExponent s = .ok r ↔ Exponent s r := by
  rw [skipOptionalExponent]
  by_cases hexp : headIs isExponent s = true
  · rcases headIs_eq_true_iff.1 hexp with ⟨e, t, rfl, he⟩
    rw [if_pos hexp, List.tail_cons, skipExponent_eq_ok_iff]
    constructor
    · rintro (h | ⟨b, u, rfl, hb, h⟩)
      · exact .unsigned he h
      · exact .signed he hb h
    · intro h
      cases h with
      | missing hnone =>
        rw [hexp] at hnone
        cases hnone
      | unsigned _ h => exact .inl h
      | signed _ hb h => exact .inr ⟨_, _, rfl, hb, h⟩
  · rw [if_neg hexp]
    constructor
    · intro h
      cases h
      exact .missing (by simpa using hexp)
    · intro h
      cases h with
      | missing => rfl
      | unsigned he => exact absurd he hexp
      | signed he => exact absurd he hexp

/-- A fraction is read with the exponent after it. -/
theorem skipFraction_eq_ok_iff {s r : List UInt8} :
    skipFraction s = .ok r ↔ ∃ t, Fraction s t ∧ Exponent t r := by
  rw [skipFraction]
  by_cases hpoint : headIs (· == point) s = true
  · rcases headIs_eq_true_iff.1 hpoint with ⟨b, t, rfl, hb⟩
    obtain rfl : b = point := by simpa using hb
    rw [if_pos hpoint, List.tail_cons]
    by_cases ht : headIs isDigit t = true
    · rw [if_pos ht, skipOptionalExponent_eq_ok_iff]
      constructor
      · intro h
        exact ⟨_, .digits ⟨ht, rfl⟩, h⟩
      · rintro ⟨u, hfraction, h⟩
        cases hfraction with
        | missing hnone => cases hnone
        | digits hdigits =>
          rw [← hdigits.rest_eq]
          exact h
    · rw [if_neg ht]
      constructor
      · intro h
        cases h
      · rintro ⟨u, hfraction, -⟩
        cases hfraction with
        | missing hnone => cases hnone
        | digits hdigits => exact absurd hdigits.first ht
  · rw [if_neg hpoint, skipOptionalExponent_eq_ok_iff]
    constructor
    · intro h
      exact ⟨s, .missing (by simpa using hpoint), h⟩
    · rintro ⟨u, hfraction, h⟩
      cases hfraction with
      | missing => exact h
      | digits => exact absurd rfl hpoint

/-- What is skipped as a number is one. -/
theorem skipNumber_eq_ok_iff {s r : List UInt8} : skipNumber s = .ok r ↔ Unsigned s r := by
  cases s with
  | nil =>
    refine ⟨fun h => (by cases h), fun h => ?_⟩
    rcases h with ⟨hwhole, -, -⟩
    cases hwhole
  | cons b s =>
    rw [skipNumber]
    by_cases hzero : b = zero
    · subst hzero
      rw [if_pos rfl]
      by_cases hs : headIs isDigit s = true
      · rw [if_pos hs]
        refine ⟨fun h => (by cases h), fun h => ?_⟩
        rcases h with ⟨hwhole, -, -⟩
        cases hwhole with
        | zero h =>
          rw [hs] at h
          cases h
        | digits hzero => exact absurd rfl hzero
      · rw [if_neg hs, skipFraction_eq_ok_iff]
        constructor
        · rintro ⟨t, hfraction, hexponent⟩
          exact ⟨.zero (by simpa using hs), hfraction, hexponent⟩
        · rintro ⟨hwhole, hfraction, hexponent⟩
          cases hwhole with
          | zero => exact ⟨_, hfraction, hexponent⟩
          | digits hzero => exact absurd rfl hzero
    · rw [if_neg hzero]
      by_cases hb : isDigit b = true
      · rw [if_pos hb, skipFraction_eq_ok_iff]
        constructor
        · rintro ⟨t, hfraction, hexponent⟩
          exact ⟨.digits hzero hb, hfraction, hexponent⟩
        · rintro ⟨hwhole, hfraction, hexponent⟩
          cases hwhole with
          | zero => exact absurd rfl hzero
          | digits => exact ⟨_, hfraction, hexponent⟩
      · rw [if_neg hb]
        refine ⟨fun h => (by cases h), fun h => ?_⟩
        rcases h with ⟨hwhole, -, -⟩
        cases hwhole with
        | zero => exact absurd rfl hzero
        | digits _ h => exact absurd h hb

/-! ## Values that are skipped -/

/-- The letters of a word are read one after the other. -/
theorem word_eq_ok_iff {es s r : List UInt8} : word es s = .ok r ↔ s = es ++ r := by
  induction es generalizing s with
  | nil =>
    rw [word, List.nil_append]
    exact ⟨fun h => Except.ok.inj h, fun h => congrArg Except.ok h⟩
  | cons e es ih =>
    cases s with
    | nil => exact ⟨nofun, nofun⟩
    | cons b s =>
      rw [word]
      by_cases hb : b = e
      · rw [if_pos hb, ih, hb, List.cons_append, List.cons_inj_right]
      · rw [if_neg hb]
        exact ⟨nofun, fun h => absurd (List.cons.inj h).1 hb⟩

/-- A number begins with a digit. -/
theorem isDigit_of_unsigned {b : UInt8} {s r : List UInt8} (h : Unsigned (b :: s) r) :
    isDigit b = true := by
  rcases h with ⟨hwhole, -, -⟩
  cases hwhole with
  | zero => rfl
  | digits _ hb => exact hb

/-- What is skipped as a value that is no list or object is one. -/
theorem skipScalar_eq_ok_iff {b : UInt8} {s r : List UInt8} :
    skipScalar b s = .ok r ↔ ∃ v, Scalar v (b :: s) r := by
  constructor
  · intro h
    unfold skipScalar at h
    split at h
    · next hb =>
      rw [hb, word_eq_ok_iff.1 h]
      exact ⟨_, .null⟩
    split at h
    · next hb =>
      rw [hb, word_eq_ok_iff.1 h]
      exact ⟨_, .true_⟩
    split at h
    · next hb =>
      rw [hb, word_eq_ok_iff.1 h]
      exact ⟨_, .false_⟩
    split at h
    · next hb =>
      rw [hb]
      exact ⟨_, .negative (skipNumber_eq_ok_iff.1 h)⟩
    split at h
    · exact ⟨_, .number (skipNumber_eq_ok_iff.1 h)⟩
    split at h
    · next hb =>
      rcases skipString_eq_ok_iff.1 h with ⟨body, hbody⟩
      rw [hb]
      exact ⟨_, .string hbody⟩
    · cases h
  · rintro ⟨v, h⟩
    cases h with
    | null => exact word_eq_ok_iff.2 rfl
    | true_ => exact word_eq_ok_iff.2 rfl
    | false_ => exact word_eq_ok_iff.2 rfl
    | negative h => exact skipNumber_eq_ok_iff.2 h
    | string h => exact skipString_eq_ok_iff.2 ⟨_, h⟩
    | number h =>
      have hdigit := isDigit_of_unsigned h
      have hne : ∀ c, isDigit c = false → b ≠ c := by
        rintro c hc rfl
        rw [hdigit] at hc
        cases hc
      rw [skipScalar, if_neg (hne _ rfl), if_neg (hne _ rfl), if_neg (hne _ rfl),
        if_neg (hne _ rfl), if_pos hdigit]
      exact skipNumber_eq_ok_iff.2 h

/-- No bracket begins a value that is no list or object. -/
theorem Scalar.front {v : Value} {s r : List UInt8} (h : Scalar v s r) :
    ∃ b t, s = b :: t ∧ b ≠ openBracket ∧ b ≠ openBrace ∧ b ≠ closeBracket := by
  cases h with
  | number h =>
    have hne : ∀ {b c : UInt8}, isDigit b = true → isDigit c = false → b ≠ c := by
      rintro b c hb hc rfl
      rw [hb] at hc
      cases hc
    cases s with
    | nil =>
      rcases h with ⟨hwhole, -, -⟩
      cases hwhole
    | cons b s =>
      have hdigit := isDigit_of_unsigned h
      exact ⟨b, s, rfl, hne hdigit rfl, hne hdigit rfl, hne hdigit rfl⟩
  | null | true_ | false_ | negative | string =>
    exact ⟨_, _, rfl, by decide, by decide, by decide⟩

/-- In an object, the key of a member is read. -/
theorem skipKey_object_eq_ok_iff {s r : List UInt8} :
    skipKey .object s = .ok r ↔ ∃ body, Key body s r := by
  constructor
  · intro h
    unfold skipKey at h
    simp only at h
    split at h
    · cases h
    · next c t ht =>
      split at h
      · cases h
      · next hquote =>
        split at h
        · cases h
        · next u hu =>
          rcases skipString_eq_ok_iff.1 hu with ⟨body, hbody⟩
          split at h
          · cases h
          · next d w hw =>
            split at h
            · next hcolon =>
              cases h
              obtain rfl : c = quote := by simpa using hquote
              exact ⟨body, t, u, ht, hbody, hcolon ▸ hw⟩
            · cases h
  · rintro ⟨body, t, u, ht, hbody, hu⟩
    have hstring := skipString_eq_ok_iff.2 ⟨body, hbody⟩
    simp only [skipKey, ht, hstring, hu, if_true]
    simp

theorem skipSpace_skipSpace (s : List UInt8) : skipSpace (skipSpace s) = skipSpace s :=
  List.dropWhile_idempotent isSpace s

/-- Skipping blanks takes nothing back. -/
theorem skipSpace_length_le (s : List UInt8) : (skipSpace s).length ≤ s.length :=
  (List.dropWhile_sublist isSpace).length_le

/-- A value is read in front of blanks as it is after them. -/
theorem Spells.of_skipSpace {v : Value} {s r : List UInt8} (h : Spells v (skipSpace s) r) :
    Spells v s r := by
  cases h with
  | scalar h => exact .scalar (skipSpace_skipSpace s ▸ h)
  | list ht h => exact .list (skipSpace_skipSpace s ▸ ht) h
  | object ht h => exact .object (skipSpace_skipSpace s ▸ ht) h

/-- No closing bracket begins the text of a value. -/
theorem Spells.front {v : Value} {s r : List UInt8} (h : Spells v s r) :
    ∃ b t, skipSpace s = b :: t ∧ b ≠ closeBracket := by
  cases h with
  | scalar h =>
    rcases h.front with ⟨b, t, ht, -, -, hb⟩
    exact ⟨b, t, ht, hb⟩
  | list ht => exact ⟨_, _, ht, by decide⟩
  | object ht => exact ⟨_, _, ht, by decide⟩

/-! ## Bytes are the text of one value at most -/

/-- Bytes begin with one value that is no list or object, if any. -/
theorem Scalar.unique {v v' : Value} {s r r' : List UInt8} (h : Scalar v s r)
    (h' : Scalar v' s r') : v = v' ∧ r = r' := by
  have hrest : r = r' := by
    rcases h.front with ⟨b, t, rfl, -⟩
    have hskip := skipScalar_eq_ok_iff.2 ⟨v, h⟩
    rw [skipScalar_eq_ok_iff.2 ⟨v', h'⟩] at hskip
    exact (Except.ok.inj hskip).symm
  refine ⟨?_, hrest⟩
  -- two different kinds of values begin with different bytes
  cases h with
  | null =>
    cases h' with
    | null => rfl
    | number h' => cases isDigit_of_unsigned h'
  | true_ =>
    cases h' with
    | true_ => rfl
    | number h' => cases isDigit_of_unsigned h'
  | false_ =>
    cases h' with
    | false_ => rfl
    | number h' => cases isDigit_of_unsigned h'
  | negative h =>
    cases h' with
    | negative | number => rfl
  | number h =>
    cases h' with
    | negative | number => rfl
    | null | true_ | false_ | string => cases isDigit_of_unsigned h
  | string h =>
    cases h' with
    | string h' => rw [(h.unique h').1]
    | number h' => cases isDigit_of_unsigned h'

/-- Values are separated in one way. -/
theorem Separated.unique {first : Bool} {s t t' : List UInt8} (h : Separated first s t)
    (h' : Separated first s t') : t = t' := by
  cases first with
  | true => exact Eq.trans h (Eq.symm h')
  | false => exact (List.cons.inj (Eq.trans (Eq.symm h) h')).2

/-- A key has one end. -/
theorem Key.unique {body body' s r r' : List UInt8} (h : Key body s r) (h' : Key body' s r') :
    body = body' ∧ r = r' := by
  rcases h with ⟨t, u, ht, hbody, hu⟩
  rcases h' with ⟨t', u', ht', hbody', hu'⟩
  obtain rfl : t = t' := (List.cons.inj (ht.symm.trans ht')).2
  rcases hbody.unique hbody' with ⟨rfl, rfl⟩
  exact ⟨rfl, (List.cons.inj (hu.symm.trans hu')).2⟩

/-- What ends a bracket does not stand in front of an item of it. -/
theorem separated_front {first : Bool} {s t u r : List UInt8} {b c : UInt8}
    (h : Separated first s t) (ht : skipSpace t = b :: u) (hb : b ≠ c) (hcomma : comma ≠ c) :
    skipSpace s ≠ c :: r := by
  intro hs
  cases first with
  | true =>
    obtain rfl : t = skipSpace s := h
    rw [skipSpace_skipSpace, hs] at ht
    exact hb (List.cons.inj ht).1.symm
  | false =>
    have hfront : skipSpace s = comma :: t := h
    rw [hs] at hfront
    exact hcomma (List.cons.inj hfront).1.symm

/-- No item begins with a closing bracket. -/
theorem item_ne_close {first : Bool} {v : Value} {s t u r : List UInt8}
    (hs : Separated first s t) (hv : Spells v t u) : skipSpace s ≠ closeBracket :: r := by
  rcases hv.front with ⟨b, x, hx, hb⟩
  exact separated_front hs hx hb (by decide)

/-- No member begins with a closing brace. -/
theorem member_ne_close {first : Bool} {body s t u r : List UInt8} (hs : Separated first s t)
    (hkey : Key body t u) : skipSpace s ≠ closeBrace :: r := by
  rcases hkey with ⟨x, -, hx, -, -⟩
  exact separated_front hs hx (by decide) (by decide)

mutual

/-- Bytes begin with the text of one value at most. -/
theorem Spells.unique {v v' : Value} {s r r' : List UInt8} (h : Spells v s r)
    (h' : Spells v' s r') : v = v' ∧ r = r' := by
  cases h with
  | scalar h =>
    rcases h.front with ⟨b, t, hb, hbracket, hbrace, -⟩
    cases h' with
    | scalar h' => exact h.unique h'
    | list ht' => exact absurd (List.cons.inj (hb.symm.trans ht')).1 hbracket
    | object ht' => exact absurd (List.cons.inj (hb.symm.trans ht')).1 hbrace
  | list ht h =>
    cases h' with
    | scalar h' =>
      rcases h'.front with ⟨b, t, hb, hbracket, hbrace, -⟩
      exact absurd (List.cons.inj (hb.symm.trans ht)).1 hbracket
    | list ht' h' =>
      obtain rfl := (List.cons.inj (ht.symm.trans ht')).2
      rcases h.unique h' with ⟨rfl, rfl⟩
      exact ⟨rfl, rfl⟩
    | object ht' => cases (List.cons.inj (ht.symm.trans ht')).1
  | object ht h =>
    cases h' with
    | scalar h' =>
      rcases h'.front with ⟨b, t, hb, hbracket, hbrace, -⟩
      exact absurd (List.cons.inj (hb.symm.trans ht)).1 hbrace
    | list ht' => cases (List.cons.inj (ht.symm.trans ht')).1
    | object ht' h' =>
      obtain rfl := (List.cons.inj (ht.symm.trans ht')).2
      rcases h.unique h' with ⟨rfl, rfl⟩
      exact ⟨rfl, rfl⟩

/-- A list has one end, and its items are read in one way. -/
theorem Items.unique {first : Bool} {vs vs' : List Value} {s r r' : List UInt8}
    (h : Items first vs s r) (h' : Items first vs' s r') : vs = vs' ∧ r = r' := by
  cases h with
  | close hs =>
    cases h' with
    | close hs' => exact ⟨rfl, (List.cons.inj (hs.symm.trans hs')).2⟩
    | item hs' hv' => exact absurd hs (item_ne_close hs' hv')
  | item hs hv h =>
    cases h' with
    | close hs' => exact absurd hs' (item_ne_close hs hv)
    | item hs' hv' h' =>
      obtain rfl := hs.unique hs'
      rcases hv.unique hv' with ⟨rfl, rfl⟩
      rcases h.unique h' with ⟨rfl, rfl⟩
      exact ⟨rfl, rfl⟩

/-- An object has one end, and its members are read in one way. -/
theorem Members.unique {first : Bool} {ms ms' : List (List UInt8 × Value)} {s r r' : List UInt8}
    (h : Members first ms s r) (h' : Members first ms' s r') : ms = ms' ∧ r = r' := by
  cases h with
  | close hs =>
    cases h' with
    | close hs' => exact ⟨rfl, (List.cons.inj (hs.symm.trans hs')).2⟩
    | member hs' hkey' => exact absurd hs (member_ne_close hs' hkey')
  | member hs hkey hv h =>
    cases h' with
    | close hs' => exact absurd hs' (member_ne_close hs hkey)
    | member hs' hkey' hv' h' =>
      obtain rfl := hs.unique hs'
      rcases hkey.unique hkey' with ⟨rfl, rfl⟩
      rcases hv.unique hv' with ⟨rfl, rfl⟩
      rcases h.unique h' with ⟨rfl, rfl⟩
      exact ⟨rfl, rfl⟩

end

/-- Bytes are the text of one value at most. -/
theorem IsText.unique {v v' : Value} {s : List UInt8} (h : IsText v s) (h' : IsText v' s) :
    v = v' := by
  rcases h with ⟨r, hv, -⟩
  rcases h' with ⟨r', hv', -⟩
  exact (hv.unique hv').1

end HclQuery.Json
