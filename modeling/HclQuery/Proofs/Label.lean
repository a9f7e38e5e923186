import HclQuery.Grammar.Template
import HclQuery.Label

/-!
# Labels are read back from their literals

The literal of a label is a string without template sequences to the grammar, and its value is the
label.  This holds for every label: a marker is doubled just where it would open a sequence.

Main definitions:

- {lit}`Escaped`: the ways in which a character is escaped.

Main results:

- Theorem {lit}`unescape_escape`: the value of an escaped text is the text.
- Theorem {lit}`unquote_quote`: the label of its literal.
- Theorem {lit}`literal?_escape`: the grammar reads the literal up to its closing quote.
-/

namespace HclQuery.Label

open Text (isControl)

/-! ## Single characters -/

/-- The ways in which a character is escaped. -/
inductive Escaped (c : Char) (next : Option Char) : List Char → Prop where
  /-- As a letter after a backslash. -/
  | letter {d : Char} (hd : d = '"' ∨ d = 'n' ∨ d = 'r' ∨ d = 't' ∨ d = '\\')
      (hc : unescapeLetter d = [c]) : Escaped c next ['\\', d]
  /-- As a marker that is doubled. -/
  | doubled (hmarker : isMarker c = true) (hnext : next = some '{') : Escaped c next [c, c]
  /-- As a code point. -/
  | code (hcontrol : isControl c = true) : Escaped c next ('\\' :: 'u' :: fourDigits c.toNat)
  /-- As itself. -/
  | plain (hquote : c ≠ '"') (hslash : c ≠ '\\') (hcontrol : isControl c = false)
      (hmarker : (isMarker c && next == some '{') = false) : Escaped c next [c]

/-- Every character is escaped in one of the ways. -/
theorem escaped_escapeChar (c : Char) (next : Option Char) :
    Escaped c next (escapeChar c next) := by
  rw [escapeChar]
  by_cases hquote : c = '"'
  · rw [if_pos hquote, hquote]
    exact .letter (by decide) rfl
  rw [if_neg hquote]
  by_cases hslash : c = '\\'
  · rw [if_pos hslash, hslash]
    exact .letter (by decide) rfl
  rw [if_neg hslash]
  by_cases hn : c = '\n'
  · rw [if_pos hn, hn]
    exact .letter (by decide) rfl
  rw [if_neg hn]
  by_cases hr : c = '\r'
  · rw [if_pos hr, hr]
    exact .letter (by decide) rfl
  rw [if_neg hr]
  by_cases ht : c = '\t'
  · rw [if_pos ht, ht]
    exact .letter (by decide) rfl
  rw [if_neg ht]
  by_cases hmarker : (isMarker c && next == some '{') = true
  · rw [if_pos hmarker]
    rw [Bool.and_eq_true, beq_iff_eq] at hmarker
    exact .doubled hmarker.1 hmarker.2
  rw [if_neg hmarker]
  by_cases hcontrol : isControl c = true
  · rw [if_pos hcontrol]
    exact .code hcontrol
  · rw [if_neg hcontrol]
    exact .plain hquote hslash (by simpa using hcontrol) (by simpa using hmarker)

/-- A brace stands in front of an escaped text just if it stands in front of the text. -/
theorem head?_escape (t : List Char) : (escape t).head? = some '{' ↔ t.head? = some '{' := by
  cases t with
  | nil => rfl
  | cons c rest =>
    by_cases hc : c = '{'
    · subst hc
      rfl
    · have hescaped := escaped_escapeChar c rest.head?
      rw [escape]
      generalize escapeChar c rest.head? = u at hescaped
      cases hescaped <;> simp [hc]

/-- Every control character is below 160. -/
theorem isControl_lt {c : Char} (h : isControl c = true) : c.toNat < 160 := by
  simp only [isControl, Bool.or_eq_true, Bool.and_eq_true, decide_eq_true_eq] at h
  omega

/-- Four digits of a small code point are hexadecimal and decoded to it. -/
theorem fourDigits_of_lt : ∀ n < 160, unescapeCode 'u' (fourDigits n) = [Char.ofNat n] ∧
    (fourDigits n).all Grammar.isHexDigit = true := by
  decide +kernel

/-- The digits of a control character denote it again. -/
theorem unescapeCode_fourDigits {c : Char} (h : isControl c = true) :
    unescapeCode 'u' (fourDigits c.toNat) = [c] := by
  rw [(fourDigits_of_lt c.toNat (isControl_lt h)).1, Char.ofNat_toNat]

/-- The digits of a control character are hexadecimal. -/
theorem fourDigits_hex {c : Char} (h : isControl c = true) :
    (fourDigits c.toNat).all Grammar.isHexDigit = true :=
  (fourDigits_of_lt c.toNat (isControl_lt h)).2

/-! ## The value of an escaped text -/

/-- A letter after a backslash is decoded by itself. -/
theorem unescape_letter {d : Char} (hu : d ≠ 'u') (hU : d ≠ 'U') (t : List Char) :
    unescape ('\\' :: d :: t) = unescapeLetter d ++ unescape t := by
  rw [unescape, if_pos rfl]
  simp only [hu, hU, or_self, if_false]

/-- Four digits after a backslash and the letter u are decoded together. -/
theorem unescape_code (ds : List Char) (hds : ds.length = 4) (t : List Char) :
    unescape ('\\' :: 'u' :: (ds ++ t)) = unescapeCode 'u' ds ++ unescape t := by
  have hwidth : escapeWidth 'u' = ds.length := hds.symm
  rw [unescape, if_pos rfl]
  simp only [true_or, if_true, hwidth, List.take_left, List.drop_left]

/-- A character that begins no escape is decoded to itself. -/
theorem unescape_plain {c : Char} {t : List Char} (hc : c ≠ '\\') (hd : isDoubled c t = false) :
    unescape (c :: t) = c :: unescape t := by
  rw [unescape.eq_def]
  simp only [if_neg hc, hd, Bool.false_eq_true, if_false]

/-- A marker that is doubled in front of a brace is decoded to one. -/
theorem unescape_doubled {c : Char} (hc : isMarker c = true) (t : List Char) :
    unescape (c :: c :: '{' :: t) = c :: unescape ('{' :: t) := by
  have hslash : c ≠ '\\' := by
    rintro rfl
    cases hc
  have hd : isDoubled c (c :: '{' :: t) = true := by simp [isDoubled, hc]
  rw [unescape, if_neg hslash, hd]
  rfl

/-- A marker that was not doubled is not taken for one that was. -/
theorem not_isDoubled_escape {c : Char} {rest : List Char}
    (h : (isMarker c && rest.head? == some '{') = false) : isDoubled c (escape rest) = false := by
  by_cases hc : isMarker c = true
  · rw [hc, Bool.true_and] at h
    rw [isDoubled, hc, Bool.true_and]
    have hslash : '\\' ≠ c := by
      rintro rfl
      cases hc
    cases rest with
    | nil => rfl
    | cons d rest =>
      have hbrace : d ≠ '{' := by simpa using h
      have hescaped := escaped_escapeChar d rest.head?
      rw [escape]
      generalize escapeChar d rest.head? = u at hescaped
      cases hescaped with
      | letter hd hletter => simp [hslash]
      | doubled hmarker hnext => simp [hbrace]
      | code hcontrol => simp
      | plain hquote hslash' hcontrol hmarker =>
        by_cases hdc : d = c
        · subst hdc
          rw [hc, Bool.true_and] at hmarker
          have hnext : (escape rest).head? ≠ some '{' := by
            rw [Ne, head?_escape]
            simpa using hmarker
          rw [List.singleton_append]
          cases hesc : escape rest with
          | nil => simp
          | cons e u =>
            rw [hesc] at hnext
            have he : e ≠ '{' := by simpa using hnext
            simp [he]
        · simp [hdc]
  · simp [isDoubled, hc]

/-- The value of an escaped character in front of an escaped text. -/
theorem unescape_escapeChar (c : Char) (rest : List Char) :
    unescape (escapeChar c rest.head? ++ escape rest) = c :: unescape (escape rest) := by
  have hescaped := escaped_escapeChar c rest.head?
  generalize escapeChar c rest.head? = u at hescaped
  cases hescaped with
  | letter hd hc =>
    have hu : ∀ d, d = '"' ∨ d = 'n' ∨ d = 'r' ∨ d = 't' ∨ d = '\\' → d ≠ 'u' ∧ d ≠ 'U' := by
      rintro d (rfl | rfl | rfl | rfl | rfl) <;> decide
    rcases hu _ hd with ⟨hu, hU⟩
    rw [List.cons_append, List.singleton_append, unescape_letter hu hU, hc]
    rfl
  | doubled hmarker hnext =>
    rcases List.head?_eq_some_iff.1 hnext with ⟨rest, rfl⟩
    exact unescape_doubled hmarker (escape rest)
  | code hcontrol =>
    have hcode := unescape_code (fourDigits c.toNat) rfl (escape rest)
    rw [unescapeCode_fourDigits hcontrol] at hcode
    exact hcode
  | plain hquote hslash hcontrol hmarker =>
    exact unescape_plain hslash (not_isDoubled_escape hmarker)

/-- The value of an escaped text is the text. -/
theorem unescape_escape (t : List Char) : unescape (escape t) = t := by
  induction t with
  | nil => rw [escape, unescape]
  | cons c rest ih => rw [escape, unescape_escapeChar, ih]

/-- The characters of a literal are those of the escaped label, between quotes. -/
theorem toList_quote (l : String) : (quote l).toList = '"' :: (escape l.toList ++ ['"']) := by
  rw [quote, String.toList_ofList]
  rfl

/-- The label of its literal. -/
theorem unquote_quote (l : String) : unquote (quote l) = l := by
  have hinside : inside (quote l).toList = escape l.toList := by
    rw [toList_quote, inside, List.getLast?_concat, if_pos rfl, List.dropLast_concat]
  rw [unquote, hinside, unescape_escape, String.ofList_toList]

end HclQuery.Label

namespace HclQuery.Grammar

open Label (escape escapeChar)
open Text (isControl)

/-! ## The literal to the grammar -/

/-- A literal goes on after each piece of it. -/
theorem literal?_of_chunk {t u : List Char} (h : part? .quoted false true t = some (.chunk, u)) :
    literal? t = literal? u := by
  rw [literal?]
  split
  · next hnone => rw [h] at hnone; cases hnone
  · next hfinish => rw [h] at hfinish; cases hfinish
  · next hpart => rw [h] at hpart; cases hpart; rfl

/-- A literal ends with its quote. -/
theorem literal?_of_finish {t u : List Char} (h : part? .quoted false true t = some (.finish, u)) :
    literal? t = some u := by
  rw [literal?]
  split
  · next hnone => rw [h] at hnone; cases hnone
  · next hfinish => rw [h] at hfinish; cases hfinish; rfl
  · next hne hpart => rw [h] at hpart; cases hpart; exact absurd rfl hne

/-- Blanks of a string are passed over. -/
theorem literal?_space {c : Char} (hc : isSpace c = true) (t : List Char) :
    literal? (c :: t) = literal? t := by
  have hpart : part? .quoted false true (c :: t) = part? .quoted false true t := by
    rw [part?, part?, List.dropWhile_cons_of_pos hc]
  rw [literal?, literal?, hpart]

/-- A character without a meaning of its own is text. -/
theorem literal?_plain {c : Char} (hzero : c ≠ '\x00') (hquote : c ≠ '"') (hslash : c ≠ '\\')
    (t : List Char) : literal? (c :: t) = literal? t := by
  by_cases hspace : isSpace c = true
  · exact literal?_space hspace t
  · have hpart : part? .quoted false true (c :: t) = some (.chunk, t) := by
      simp [part?, hspace, hzero, hquote, hslash]
    exact literal?_of_chunk hpart

/-- A literal goes on after an escape. -/
theorem literal?_slash {u v : List Char} (h : escape? u = some v) :
    literal? ('\\' :: u) = literal? v := by
  have hpart : part? .quoted false true ('\\' :: u) = some (.chunk, v) := by
    simp [part?, isSpace, h]
  exact literal?_of_chunk hpart

/-- An escaped character is text of a string. -/
theorem literal?_escapeChar (c : Char) (next : Option Char) (t : List Char) :
    literal? (escapeChar c next ++ t) = literal? t := by
  have hescaped := Label.escaped_escapeChar c next
  generalize escapeChar c next = u at hescaped
  cases hescaped with
  | letter hd hc =>
    exact literal?_slash (if_pos hd)
  | doubled hmarker hnext =>
    have hplain : ∀ c, Label.isMarker c = true → c ≠ '\x00' ∧ c ≠ '"' ∧ c ≠ '\\' := by
      intro c hc
      rw [Label.isMarker, Bool.or_eq_true, beq_iff_eq, beq_iff_eq] at hc
      rcases hc with rfl | rfl <;> decide
    rcases hplain c hmarker with ⟨hzero, hquote, hslash⟩
    rw [List.cons_append, literal?_plain hzero hquote hslash, List.singleton_append,
      literal?_plain hzero hquote hslash]
  | code hcontrol =>
    have hhex := Label.fourDigits_hex hcontrol
    have htake : (Label.fourDigits c.toNat ++ t).take 4 = Label.fourDigits c.toNat := rfl
    have hdrop : (Label.fourDigits c.toNat ++ t).drop 4 = t := rfl
    have hlength : (Label.fourDigits c.toNat).length = 4 := rfl
    refine literal?_slash ?_
    simp [escape?, hexDigits?, htake, hdrop, hhex, hlength]
  | plain hquote hslash hcontrol hmarker =>
    have hzero : c ≠ '\x00' := by
      rintro rfl
      cases hcontrol
    exact literal?_plain hzero hquote hslash t

/-- The grammar reads the literal of a label up to its closing quote. -/
theorem literal?_escape (label rest : List Char) :
    literal? (escape label ++ '"' :: rest) = some rest := by
  induction label with
  | nil => exact literal?_of_finish (by simp [escape, part?, isSpace])
  | cons c label ih => rw [escape, List.append_assoc, literal?_escapeChar, ih]

end HclQuery.Grammar
