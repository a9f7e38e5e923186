import HclQuery.Proofs.Grammar.Respacing

/-!
# Tokens of code in texts that are spaced differently

No token of code has a blank in it, apart from the opening of a heredoc, and a token ends in front
of a blank or a comment at the latest.  So a token that ends before the place up to which two texts
agree, or at it, is a token of both.

Main results:

- Theorem {lit}`Respaced.identifier?`: the same identifier is read.
- Theorem {lit}`Respaced.numeral?`: the same numeral is read.
- Theorem {lit}`word?_eq_keyword?`: where no identifier is acceptable, a word is a keyword.
- Theorem {lit}`Respaced.lexCode`: the same token of code is read.
-/

namespace HclQuery.Grammar

open Text

variable {gaps : Prop} {rest rest' t t' : List Char}

/-! ## Words -/

/-- What breaks a text is no part of a name. -/
theorem isNamePart_of_isBreak {c : Char} (h : isBreak c = true) : isNamePart c = false :=
  not_class_of_isBreak (fun _ => visible_of_isNamePart) (by decide) (by decide) h

/-- No name goes on with a blank or a comment. -/
theorem nameRest_break {b : Char} (hb : isBreak b = true) (u : List Char) :
    nameRest (b :: u) = ([], b :: u) := by
  have hcolon : b ≠ ':' := by
    rintro rfl
    cases hb
  cases u with
  | nil => simp [nameRest, isNamePart_of_isBreak hb]
  | cons d u => simp [nameRest, isNamePart_of_isBreak hb, hcolon]

/-- A name goes on with its characters and with pairs of colons. -/
theorem nameRest_cons (c : Char) (t : List Char) :
    nameRest (c :: t) =
      if isNamePart c = true then (c :: (nameRest t).1, (nameRest t).2)
      else if c = ':' ∧ t.head? = some ':' then
        (':' :: ':' :: (nameRest t.tail).1, (nameRest t.tail).2)
      else ([], c :: t) := by
  cases t with
  | nil =>
    by_cases hc : isNamePart c = true
    · simp [nameRest, hc]
    · simp [nameRest, hc]
  | cons d t =>
    rw [nameRest]
    by_cases hc : isNamePart c = true
    · simp [hc]
    · by_cases hcolon : c = ':' ∧ d = ':'
      · rcases hcolon with ⟨rfl, rfl⟩
        simp [hc]
      · simp [hc, hcolon]

/-- What follows the rest of a name is the end of the text. -/
theorem nameRest_suffix (t : List Char) : (nameRest t).2 <:+ t :=
  ⟨(nameRest t).1, nameRest_append t⟩

namespace Respaced

/-- The name at the front of two texts. -/
theorem nameRest (h : Respaced gaps rest rest' t t')
    (hrest : rest.length ≤ (Grammar.nameRest t).2.length) :
    (Grammar.nameRest t').1 = (Grammar.nameRest t).1 ∧
      Respaced gaps rest rest' (Grammar.nameRest t).2 (Grammar.nameRest t').2 := by
  -- Two colons are read at once, so the induction is on the length of the text.
  induction hn : t.length using Nat.strongRecOn generalizing t t' with | ind n ih =>
  cases h.front with
  | stop ht ht' hrest' =>
    subst ht ht'
    have heq := (nameRest_suffix t).eq_of_length_le hrest
    have happ := nameRest_append t
    rw [heq] at happ
    rw [heq, List.append_left_eq_self.1 happ]
    rcases hrest' with ⟨b, u, rfl, hb⟩
    rw [nameRest_break hb]
    exact ⟨rfl, h⟩
  | gap b b' u u' ht ht' hb hb' =>
    rw [ht, ht', nameRest_break (isBreak_of_isSpace hb), nameRest_break (isBreak_of_isSpace hb'),
      ← ht, ← ht']
    exact ⟨rfl, h⟩
  | char c u u' ht ht' hu =>
    subst ht ht'
    rw [nameRest_cons] at hrest ⊢
    rw [nameRest_cons]
    by_cases hc : isNamePart c = true
    · rw [if_pos hc] at hrest ⊢
      rw [if_pos hc]
      obtain ⟨hname, hrel⟩ := ih u.length (by simp [← hn]) hu hrest rfl
      exact ⟨by rw [hname], hrel⟩
    · rw [if_neg hc] at hrest ⊢
      rw [if_neg hc]
      by_cases hcolon : c = ':' ∧ u.head? = some ':'
      · rcases hcolon with ⟨rfl, hhead⟩
        rcases List.head?_eq_some_iff.1 hhead with ⟨v, rfl⟩
        have hcolon : ∀ v : List Char, ':' = ':' ∧ (':' :: v).head? = some ':' :=
          fun v => ⟨rfl, rfl⟩
        rw [if_pos (hcolon v)] at hrest ⊢
        rcases hu.of_cons rfl with ⟨v', rfl, hv⟩ | ⟨hstop, -⟩
        · rw [if_pos (hcolon v')]
          have hlt : v.length < n := by
            rw [← hn, List.length_cons, List.length_cons]
            omega
          rcases ih v.length hlt hv hrest rfl with ⟨hname, hrel⟩
          exact ⟨by rw [List.tail_cons, hname]; rfl, hrel⟩
        · have hle := (nameRest_suffix v).length_le
          have hlength := congrArg List.length hstop
          simp only [List.tail_cons, List.length_cons] at hrest hlength
          omega
      · have hcolon' : ¬(c = ':' ∧ u'.head? = some ':') :=
          fun hc' => hcolon ⟨hc'.1, hu.head?_of_head? rfl hc'.2⟩
        rw [if_neg hcolon, if_neg hcolon']
        exact ⟨rfl, h⟩

/-- The identifier at the front of two texts. -/
theorem identifier? {name u : List Char} (h : Respaced gaps rest rest' t t')
    (hi : Grammar.identifier? t = some (name, u)) (hu : rest.length ≤ u.length) :
    ∃ u', Grammar.identifier? t' = some (name, u') ∧ Respaced gaps rest rest' u u' := by
  have hlt := identifier?_length hi
  cases t with
  | nil => simp [Grammar.identifier?] at hi
  | cons c t =>
    rw [Grammar.identifier?] at hi
    by_cases hc : isNameStart c = true
    · rw [if_pos hc] at hi
      obtain ⟨rfl, rfl⟩ : _ ∧ _ := by simpa using hi
      rcases h.of_cons (isSpace_of_visible (visible_of_isNameStart hc)) with ⟨v', rfl, hv⟩ | ⟨hs, -⟩
      · rcases hv.nameRest hu with ⟨hname, hrel⟩
        refine ⟨(Grammar.nameRest v').2, ?_, hrel⟩
        rw [Grammar.identifier?, if_pos hc, ← hname]
      · rw [hs] at hlt
        omega
    · rw [if_neg hc] at hi
      cases hi

end Respaced

/-! ## Numbers -/

theorem isDigit_of_isBreak {c : Char} (h : isBreak c = true) : isDigit c = false :=
  not_class_of_isBreak (fun _ => visible_of_isDigit) (by decide) (by decide) h

theorem isHexPart_of_isBreak {c : Char} (h : isBreak c = true) : isHexPart c = false :=
  not_class_of_isBreak (fun _ => visible_of_isHexPart) (by decide) (by decide) h

/-- Digits are taken when the first character is one. -/
theorem digits?_eq (t : List Char) :
    digits? t =
      if t.head?.any isDigit = true then some (t.dropWhile isDigit) else none := rfl

/-- The text after a sign, if there is one. -/
def unsigned (t : List Char) : List Char :=
  if t.head? = some '-' ∨ t.head? = some '+' then t.drop 1 else t

/-- An exponent is taken when a letter and digits begin it. -/
theorem afterExponent_cons (c : Char) (t : List Char) :
    afterExponent (c :: t) =
      if c = 'e' ∨ c = 'E' then (digits? (unsigned t)).getD (c :: t) else c :: t := rfl

/-- A fraction is taken when a dot and digits begin it. -/
theorem afterFraction_eq (t : List Char) :
    afterFraction t =
      if t.head? = some '.' then ((digits? t.tail).map afterExponent).getD t
      else t := by
  unfold afterFraction
  split
  · rfl
  · next hne =>
    rw [if_neg]
    intro hhead
    rcases List.head?_eq_some_iff.1 hhead with ⟨u, rfl⟩
    exact hne u rfl

/-- No digits follow a text that begins with a blank or a comment. -/
theorem digits?_unsigned_of_separates {t : List Char} (h : Separates t) :
    digits? (unsigned t) = none := by
  rcases h with ⟨b, u, rfl, hb⟩
  have hne : ∀ d, isBreak d = false → b ≠ d := by
    rintro d hd rfl
    rw [hb] at hd
    cases hd
  simp [unsigned, hne '-' rfl, hne '+' rfl, digits?_eq, isDigit_of_isBreak hb]

/-- No fraction follows a text that begins with a blank or a comment. -/
theorem afterFraction_of_separates {t : List Char} (h : Separates t) : afterFraction t = t := by
  rcases h with ⟨b, u, rfl, hb⟩
  have hdot : b ≠ '.' := by
    rintro rfl
    cases hb
  simp [afterFraction_eq, hdot]

/-- A text that begins like a hexadecimal numeral. -/
def BeginsHex (t : List Char) : Prop :=
  ∃ u, t = '0' :: 'x' :: u

/-- What does not begin like a hexadecimal number is a decimal one. -/
theorem numeral?_of_not_beginsHex (h : ¬BeginsHex t) :
    numeral? t = (digits? t).map afterFraction := by
  unfold numeral?
  split
  · next u => exact absurd ⟨u, rfl⟩ h
  · rfl

/-- A zero in front of a blank or a comment. -/
theorem numeral?_zero {t : List Char} (h : Separates t) : numeral? ('0' :: t) = some t := by
  have hhex : ¬BeginsHex ('0' :: t) := by
    rintro ⟨v, hv⟩
    cases hv
    rcases h with ⟨b, u, hb, hbreak⟩
    cases hb
    cases hbreak
  have hdigits : digits? ('0' :: t) = some t := by
    rcases h with ⟨b, u, rfl, hb⟩
    have hneg : ¬isDigit b = true := by simp [isDigit_of_isBreak hb]
    have hfront : ('0' :: b :: u).head?.any isDigit = true := rfl
    rw [digits?_eq, if_pos hfront, List.dropWhile_cons_of_pos rfl,
      List.dropWhile_cons_of_neg hneg]
  rw [numeral?_of_not_beginsHex hhex, hdigits, Option.map_some, afterFraction_of_separates h]

namespace Respaced

/-- A class of characters at the front of the second text is at that of the first one. -/
theorem any_head? {p : Char → Bool} (hp : ∀ c, isBreak c = true → p c = false)
    (h : Respaced gaps rest rest' t t') (ht' : t'.head?.any p = true) : t.head?.any p = true := by
  cases t' with
  | nil => cases ht'
  | cons c u' =>
    have hc : p c = true := ht'
    have hbreak : isBreak c = false := by
      rw [Bool.eq_false_iff]
      intro hbreak
      rw [hp c hbreak] at hc
      cases hc
    rcases h.to_cons hbreak with ⟨u, rfl, -⟩
    exact hc

/-- A class of characters at the front of the first text, with a run of them before the place. -/
theorem any_head?_of_run {p : Char → Bool} (hp : ∀ c, isBreak c = true → p c = false)
    (h : Respaced gaps rest rest' t t') (ht : t.head?.any p = true)
    (hrest : rest.length ≤ (t.dropWhile p).length) : t'.head?.any p = true := by
  cases t with
  | nil => cases ht
  | cons c u =>
    have hc : p c = true := ht
    have hspace := isSpace_of_class (fun d hd => hp d (isBreak_of_isSpace hd)) hc
    rcases h.of_cons hspace with ⟨u', rfl, -⟩ | ⟨hstop, -⟩
    · exact hc
    · have hle := (List.dropWhile_suffix p (l := u)).length_le
      rw [List.dropWhile_cons_of_pos hc, ← hstop, List.length_cons] at hrest
      omega

/-- Where one text has no digits, neither has the other. -/
theorem digits?_none (h : Respaced gaps rest rest' t t') (hd : Grammar.digits? t = none) :
    Grammar.digits? t' = none := by
  rw [digits?_eq] at hd ⊢
  by_cases ht' : t'.head?.any isDigit = true
  · rw [if_pos (h.any_head? (fun _ => isDigit_of_isBreak) ht')] at hd
    cases hd
  · rw [if_neg ht']

/-- Digits of one text are digits of the other. -/
theorem digits? {u : List Char} (h : Respaced gaps rest rest' t t')
    (hd : Grammar.digits? t = some u)
    (hu : rest.length ≤ u.length) :
    ∃ u', Grammar.digits? t' = some u' ∧ Respaced gaps rest rest' u u' := by
  rw [digits?_eq] at hd
  by_cases ht : t.head?.any isDigit = true
  · rw [if_pos ht] at hd
    obtain rfl : t.dropWhile isDigit = u := Option.some.inj hd
    have ht' := h.any_head?_of_run (fun _ => isDigit_of_isBreak) ht hu
    exact ⟨t'.dropWhile isDigit, by rw [digits?_eq, if_pos ht'],
      (h.span (fun _ => isDigit_of_isBreak) hu).1⟩
  · rw [if_neg ht] at hd
    cases hd

/-- The digits that may follow, or else the whole text. -/
theorem digits?_getD {v v' : List Char} (h : Respaced gaps rest rest' t t')
    (hv : Respaced gaps rest rest' v v')
    (hrest : rest.length ≤ ((Grammar.digits? v).getD t).length) :
    Respaced gaps rest rest' ((Grammar.digits? v).getD t) ((Grammar.digits? v').getD t') := by
  cases hd : Grammar.digits? v with
  | none =>
    rw [hv.digits?_none hd]
    exact h
  | some u =>
    rw [hd] at hrest
    rcases hv.digits? hd hrest with ⟨u', hu', hrel⟩
    rw [hu']
    exact hrel

/-- The exponent that may follow, with its sign, or else the whole text. -/
theorem unsigned_getD {u u' : List Char} (h : Respaced gaps rest rest' t t')
    (hu : Respaced gaps rest rest' u u')
    (hrest : rest.length ≤ ((Grammar.digits? (unsigned u)).getD t).length) :
    Respaced gaps rest rest' ((Grammar.digits? (unsigned u)).getD t)
      ((Grammar.digits? (unsigned u')).getD t') := by
  by_cases hsign : u.head? = some '-' ∨ u.head? = some '+'
  · obtain ⟨d, v, rfl, hd⟩ : ∃ d v, u = d :: v ∧ isSpace d = false := by
      rcases hsign with hsign | hsign
      · rcases List.head?_eq_some_iff.1 hsign with ⟨v, rfl⟩
        exact ⟨'-', v, rfl, rfl⟩
      · rcases List.head?_eq_some_iff.1 hsign with ⟨v, rfl⟩
        exact ⟨'+', v, rfl, rfl⟩
    have hafter : ∀ v : List Char, unsigned (d :: v) = v := fun v => if_pos hsign
    rw [hafter] at hrest ⊢
    rcases hu.of_cons hd with ⟨v', rfl, hv⟩ | ⟨hstop, rfl, hrest'⟩
    · rw [hafter]
      exact h.digits?_getD hv hrest
    · -- The sign comes after the place, so the exponent does, and neither text has one.
      have hnone : Grammar.digits? v = none := by
        cases hdigits : Grammar.digits? v with
        | none => rfl
        | some x =>
          have hlt := digits?_length hdigits
          rw [hdigits, ← hstop] at hrest
          simp only [List.length_cons, Option.getD_some] at hrest
          omega
      rw [hnone, digits?_unsigned_of_separates hrest']
      exact h
  · have hsign' : ¬(u'.head? = some '-' ∨ u'.head? = some '+') := by
      rintro (hsign' | hsign')
      · exact hsign (.inl (hu.head?_of_head? rfl hsign'))
      · exact hsign (.inr (hu.head?_of_head? rfl hsign'))
    rw [show unsigned u = u from if_neg hsign] at hrest ⊢
    rw [show unsigned u' = u' from if_neg hsign']
    exact h.digits?_getD hu hrest

/-- An exponent of one text is one of the other. -/
theorem afterExponent (h : Respaced gaps rest rest' t t')
    (hrest : rest.length ≤ (Grammar.afterExponent t).length) :
    Respaced gaps rest rest' (Grammar.afterExponent t) (Grammar.afterExponent t') := by
  have hbreak : ∀ (b : Char) (u : List Char), isBreak b = true →
      Grammar.afterExponent (b :: u) = b :: u := by
    intro b u hb
    rw [afterExponent_cons, if_neg]
    rintro (rfl | rfl)
    · cases hb
    · cases hb
  cases h.front with
  | stop ht ht' hrest' =>
    subst ht ht'
    have hsuffix : Grammar.afterExponent t <:+ t := by
      rcases afterExponent_takes t with heq | htakes
      · rw [← heq]
      · exact htakes.suffix
    rw [hsuffix.eq_of_length_le hrest]
    rcases hrest' with ⟨b, u, rfl, hb⟩
    rw [hbreak b u hb]
    exact h
  | gap b b' u u' ht ht' hb hb' =>
    rw [ht, ht', hbreak b u (isBreak_of_isSpace hb), hbreak b' u' (isBreak_of_isSpace hb'), ← ht,
      ← ht']
    exact h
  | char c u u' ht ht' hu =>
    subst ht ht'
    rw [afterExponent_cons] at hrest ⊢
    rw [afterExponent_cons]
    by_cases hc : c = 'e' ∨ c = 'E'
    · rw [if_pos hc] at hrest ⊢
      rw [if_pos hc]
      exact h.unsigned_getD hu hrest
    · rw [if_neg hc, if_neg hc]
      exact h

/-- A fraction of one text is one of the other. -/
theorem afterFraction (h : Respaced gaps rest rest' t t')
    (hrest : rest.length ≤ (Grammar.afterFraction t).length) :
    Respaced gaps rest rest' (Grammar.afterFraction t) (Grammar.afterFraction t') := by
  rw [afterFraction_eq] at hrest ⊢
  rw [afterFraction_eq]
  by_cases hdot : t.head? = some '.'
  · rcases List.head?_eq_some_iff.1 hdot with ⟨u, rfl⟩
    rw [if_pos hdot] at hrest ⊢
    rw [List.tail_cons] at hrest ⊢
    have hle : ∀ x, Grammar.digits? u = some x →
        (Grammar.afterExponent x).length < ('.' :: u).length := by
      intro x hx
      have hlt := digits?_length hx
      have hle := afterExponent_length_le x
      rw [List.length_cons]
      omega
    rcases h.of_cons rfl with ⟨u', rfl, hu⟩ | ⟨hstop, rfl, hrest'⟩
    · rw [if_pos List.head?_cons, List.tail_cons]
      cases hd : Grammar.digits? u with
      | none =>
        rw [hu.digits?_none hd]
        exact h
      | some x =>
        rw [hd] at hrest
        have hx : rest.length ≤ x.length := Nat.le_trans hrest (afterExponent_length_le x)
        rcases hu.digits? hd hx with ⟨x', hx', hrel⟩
        rw [hx']
        exact hrel.afterExponent hrest
    · rw [← afterFraction_eq, afterFraction_of_separates hrest']
      cases hd : Grammar.digits? u with
      | none => exact h
      | some x =>
        have hlt := hle x hd
        rw [hd, ← hstop] at hrest
        simp only [Option.map_some, Option.getD_some] at hrest
        omega
  · have hdot' : ¬t'.head? = some '.' := fun hdot' => hdot (h.head?_of_head? rfl hdot')
    rw [if_neg hdot, if_neg hdot']
    exact h

/-- A numeral of one text is one of the other. -/
theorem numeral? {u : List Char} (h : Respaced gaps rest rest' t t')
    (hn : Grammar.numeral? t = some u) (hu : rest.length ≤ u.length) :
    ∃ u', Grammar.numeral? t' = some u' ∧ Respaced gaps rest rest' u u' := by
  by_cases hhex : BeginsHex t
  · rcases hhex with ⟨v, rfl⟩
    rw [Grammar.numeral?] at hn
    have hlt : u.length ≤ ('x' :: v).length := by
      have hlt := numeral?_length (t := '0' :: 'x' :: v) hn
      rw [List.length_cons] at hlt
      omega
    rcases h.of_cons rfl with ⟨w', rfl, hw⟩ | ⟨hstop, -⟩
    · rcases hw.of_cons rfl with ⟨v', rfl, hv⟩ | ⟨hstop, rfl, hrest'⟩
      · rw [Grammar.numeral?]
        by_cases hpart : v.head?.any isHexPart = true
        · rw [if_pos hpart] at hn
          obtain rfl : v.dropWhile isHexPart = u := Option.some.inj hn
          rw [if_pos (hv.any_head?_of_run (fun _ => isHexPart_of_isBreak) hpart hu)]
          exact ⟨_, rfl, (hv.span (fun _ => isHexPart_of_isBreak) hu).1⟩
        · rw [if_neg hpart] at hn
          obtain rfl : 'x' :: v = u := Option.some.inj hn
          have hpart' : ¬v'.head?.any isHexPart = true :=
            fun hpart' => hpart (hv.any_head? (fun _ => isHexPart_of_isBreak) hpart')
          rw [if_neg hpart']
          exact ⟨_, rfl, hw⟩
      · -- The mark comes after the place, so the numeral is the zero in front of it.
        by_cases hpart : v.head?.any isHexPart = true
        · rw [if_pos hpart] at hn
          obtain rfl : v.dropWhile isHexPart = u := Option.some.inj hn
          have hle := (List.dropWhile_suffix isHexPart (l := v)).length_le
          rw [← hstop, List.length_cons] at hu
          omega
        · rw [if_neg hpart] at hn
          obtain rfl : 'x' :: v = u := Option.some.inj hn
          exact ⟨w', numeral?_zero hrest', hw⟩
    · rw [← hstop, List.length_cons] at hu
      omega
  · have hhex' : ¬BeginsHex t' := by
      rintro ⟨v', rfl⟩
      rcases h.to_cons rfl with ⟨w, rfl, hw⟩
      rcases hw.to_cons rfl with ⟨v, rfl, -⟩
      exact hhex ⟨v, rfl⟩
    rw [numeral?_of_not_beginsHex hhex] at hn
    rw [numeral?_of_not_beginsHex hhex']
    rcases Option.map_eq_some_iff.1 hn with ⟨x, hx, rfl⟩
    have hxrest : rest.length ≤ x.length := Nat.le_trans hu (afterFraction_length_le x)
    rcases h.digits? hx hxrest with ⟨x', hx', hrel⟩
    exact ⟨Grammar.afterFraction x', by rw [hx']; rfl, hrel.afterFraction hu⟩

end Respaced

/-! ## Spellings -/

/-- A name goes on as long as it can. -/
theorem nameRest_stops (t : List Char) :
    ∀ c, (nameRest t).2.head? = some c → isNamePart c = false := by
  fun_induction nameRest t with
  | case1 => simp
  | case2 => simp
  | case3 c hc => simpa using hc
  | case4 c d t hc name rest hn ih => rw [hn] at ih; exact ih
  | case5 c d t hc hcolon name rest hn ih => rw [hn] at ih; exact ih
  | case6 c d t hc hcolon => simpa using hc

/-- Keywords are spelled with parts of names. -/
theorem keywords_parts : ∀ k ∈ keywords, ∀ c ∈ k.1, isNamePart c = true := by
  have hall : (keywords.all fun k => k.1.all isNamePart) = true := by decide
  intro k hk
  exact List.all_eq_true.1 (List.all_eq_true.1 hall k hk)

/-- No keyword is the front of one that comes after it. -/
theorem keywords_pairwise : keywords.Pairwise fun a b => ¬a.1 <+: b.1 := by
  decide

/-- No other keyword stands at the front of a text in which a name ends after a keyword. -/
theorem not_prefix_of_name {a k : List Char × Keyword} {u : List Char} (ha : a ∈ keywords)
    (hnot : ¬a.1 <+: k.1) (hstops : ∀ c, u.head? = some c → isNamePart c = false) :
    ¬a.1 <+: k.1 ++ u := by
  intro hfront
  rcases List.prefix_or_prefix_of_prefix hfront (List.prefix_append k.1 u) with hle | ⟨x, hx⟩
  · exact hnot hle
  · -- The longer keyword goes on with a name part, where the name ends.
    cases x with
    | nil => exact hnot ⟨[], by rw [← hx, List.append_nil, List.append_nil]⟩
    | cons d x =>
      have hd : isNamePart d = true :=
        keywords_parts a ha d (hx ▸ List.mem_append_right _ (List.mem_cons_self ..))
      rcases hfront with ⟨y, hy⟩
      rw [← hx, List.append_assoc] at hy
      have hhead := List.append_cancel_left hy
      have hend := hstops d (by rw [← hhead]; rfl)
      rw [hd] at hend
      cases hend

/-- Where no identifier is acceptable, a word is the keyword at its front. -/
theorem word?_eq_keyword? {accepts : Token → Bool} (hword : accepts .word = false) {c : Char}
    (hc : isNameStart c = true) (t : List Char) :
    word? accepts (c :: t) = keyword? accepts (c :: t) := by
  rw [word?, identifier?, if_pos hc]
  simp only
  cases hk : keywords.find? fun k => k.1 == c :: (nameRest t).1 && accepts (.keyword k.2) with
  | none => simp [hword]
  | some k =>
    rcases List.find?_eq_some_iff_append.1 hk with ⟨hname, as, bs, hkeywords, hbefore⟩
    rw [Bool.and_eq_true, beq_iff_eq] at hname
    rcases hname with ⟨hname, haccepts⟩
    have happ : c :: t = k.1 ++ (nameRest t).2 := by
      rw [hname, List.cons_append, nameRest_append]
    have hfind : (keywords.find? fun k => k.1.isPrefixOf (c :: t) && accepts (.keyword k.2)) =
        some k := by
      refine List.find?_eq_some_iff_append.2 ⟨?_, as, bs, hkeywords, ?_⟩
      · rw [haccepts, Bool.and_true, List.isPrefixOf_iff_prefix, happ]
        exact List.prefix_append _ _
      · intro a ha
        rw [Bool.not_eq_true', Bool.eq_false_iff]
        intro hfront
        rw [Bool.and_eq_true, List.isPrefixOf_iff_prefix, happ] at hfront
        have hpairwise := keywords_pairwise
        rw [hkeywords] at hpairwise
        have hnot := (List.pairwise_append.1 hpairwise).2.2 a ha k (List.mem_cons_self ..)
        have hmem : a ∈ keywords := hkeywords ▸ List.mem_append_left _ ha
        exact not_prefix_of_name hmem hnot (nameRest_stops t) hfront.1
    rw [keyword?, hfind, happ]
    simp

/-- Visible characters, of which only the first may be one that comments begin with. -/
def Spelling (a : List Char) : Prop :=
  ∃ c b, a = c :: b ∧ isSpace c = false ∧ ∀ d ∈ b, isBreak d = false

/-- What is spelled is visible. -/
theorem Spelling.isSpace {a : List Char} (h : Spelling a) : ∀ c ∈ a, isSpace c = false := by
  rcases h with ⟨c, b, rfl, hc, hb⟩
  intro d hd
  rcases List.mem_cons.1 hd with rfl | hd
  · exact hc
  · exact isSpace_of_not_isBreak (hb d hd)

/-- Spellings of a table, by a look at each of them. -/
theorem spelling_of_all {α : Type} {table : List (List Char × α)}
    (h : (table.all fun s => s.1 != [] && (s.1.take 1).all (!isSpace ·) &&
      s.1.tail.all (!isBreak ·)) = true) : ∀ s ∈ table, Spelling s.1 := by
  intro s hs
  have hall := List.all_eq_true.1 h s hs
  cases hs1 : s.1 with
  | nil => simp [hs1] at hall
  | cons c b =>
    simp only [hs1, Bool.and_eq_true, List.all_eq_true, List.tail_cons, Bool.not_eq_true'] at hall
    exact ⟨c, b, rfl, hall.1.2 c (by simp), hall.2⟩

/-- Every symbol is spelled with visible characters, of which only the first may begin a comment. -/
theorem spelling_spellings : ∀ s ∈ spellings, Spelling s.1 :=
  spelling_of_all (by decide)

/-- Every keyword is spelled with visible characters that begin no comment. -/
theorem spelling_keywords : ∀ s ∈ keywords, Spelling s.1 :=
  spelling_of_all (by decide)

/-- A text that something was taken of is not at the place. -/
theorem ne_of_takes {t u rest : List Char} (h : Takes t u) (hu : rest.length ≤ u.length) :
    t ≠ rest := by
  rcases h with ⟨a, hne, -, rfl⟩
  rintro rfl
  have hpos := List.length_pos_iff.2 hne
  rw [List.length_append] at hu
  omega

namespace Respaced

/-- The first spelling of a table that stands at the front of two texts. -/
theorem find_spelling {α : Type} {table : List (List Char × α)} {p : List Char × α → Bool}
    (htable : ∀ s ∈ table, Spelling s.1) (h : Respaced gaps rest rest' t t') (hne : t ≠ rest)
    {s : List Char × α} (hs : table.find? (fun s => s.1.isPrefixOf t && p s) = some s)
    (hrest : rest.length ≤ (t.drop s.1.length).length) :
    table.find? (fun s => s.1.isPrefixOf t' && p s) = some s ∧
      Respaced gaps rest rest' (t.drop s.1.length) (t'.drop s.1.length) := by
  induction table with
  | nil => cases hs
  | cons q table ih =>
    have hq : Spelling q.1 := htable q (List.mem_cons_self ..)
    by_cases hfront : (q.1.isPrefixOf t && p q) = true
    · simp only [List.find?_cons, hfront] at hs
      obtain rfl : q = s := Option.some.inj hs
      rw [Bool.and_eq_true, List.isPrefixOf_iff_prefix] at hfront
      rcases hfront with ⟨⟨u, rfl⟩, hp⟩
      rw [List.drop_left] at hrest ⊢
      rcases h.of_append hq.isSpace hrest with ⟨u', rfl, hu⟩
      have hfront' : (q.1.isPrefixOf (q.1 ++ u') && p q) = true := by
        rw [hp, Bool.and_true, List.isPrefixOf_iff_prefix]
        exact List.prefix_append q.1 u'
      simp only [List.find?_cons, hfront', List.drop_left]
      exact ⟨trivial, hu⟩
    · have hfront' : (q.1.isPrefixOf t' && p q) = false := by
        rw [Bool.eq_false_iff]
        intro hfront'
        rw [Bool.and_eq_true, List.isPrefixOf_iff_prefix] at hfront'
        rcases hfront' with ⟨⟨u', rfl⟩, hp⟩
        rcases hq with ⟨c, a, hca, hc, ha⟩
        rw [hca, List.cons_append] at h
        rcases h.to_cons_of_ne hc hne with ⟨v, rfl, hv⟩
        rcases hv.to_append ha with ⟨u, rfl, -⟩
        apply hfront
        rw [hp, Bool.and_true, List.isPrefixOf_iff_prefix, hca]
        exact List.prefix_append (c :: a) u
      simp only [List.find?_cons, Bool.eq_false_iff.2 hfront] at hs
      simp only [List.find?_cons, hfront']
      exact ih (fun s hs => htable s (List.mem_cons_of_mem _ hs)) hs

/-- A symbol of one text is one of the other. -/
theorem symbol? {accepts : Token → Bool} {k : Token} {u : List Char}
    (h : Respaced gaps rest rest' t t') (hk : Grammar.symbol? accepts t = some (k, u))
    (hu : rest.length ≤ u.length) :
    ∃ u', Grammar.symbol? accepts t' = some (k, u') ∧ Respaced gaps rest rest' u u' := by
  have hne := ne_of_takes (symbol?_takes hk).1 hu
  rcases Option.map_eq_some_iff.1 hk with ⟨s, hs, he⟩
  obtain ⟨rfl, rfl⟩ : _ ∧ _ := by simpa using he
  rcases h.find_spelling (p := fun s => accepts (.symbol s.2)) spelling_spellings hne hs hu with
    ⟨hs', hrel⟩
  exact ⟨_, by rw [Grammar.symbol?, hs']; rfl, hrel⟩

/-- A keyword of one text is one of the other. -/
theorem keyword? {accepts : Token → Bool} {k : Token} {u : List Char}
    (h : Respaced gaps rest rest' t t') (hk : Grammar.keyword? accepts t = some (k, u))
    (hu : rest.length ≤ u.length) :
    ∃ u', Grammar.keyword? accepts t' = some (k, u') ∧ Respaced gaps rest rest' u u' := by
  have hne := ne_of_takes (keyword?_takes hk).1 hu
  rcases Option.map_eq_some_iff.1 hk with ⟨s, hs, he⟩
  obtain ⟨rfl, rfl⟩ : _ ∧ _ := by simpa using he
  rcases h.find_spelling (p := fun s => accepts (.keyword s.2)) spelling_keywords hne hs hu with
    ⟨hs', hrel⟩
  exact ⟨_, by rw [Grammar.keyword?, hs']; rfl, hrel⟩

/-- A word of one text is one of the other. -/
theorem word? {accepts : Token → Bool} {k : Token} {c : Char} {v u : List Char}
    (hc : isNameStart c = true) (h : Respaced gaps rest rest' (c :: v) t')
    (hk : Grammar.word? accepts (c :: v) = some (k, u)) (hu : rest.length ≤ u.length) :
    ∃ u', Grammar.word? accepts t' = some (k, u') ∧ Respaced gaps rest rest' u u' := by
  by_cases hword : accepts .word = true
  · rw [Grammar.word?] at hk
    cases hi : Grammar.identifier? (c :: v) with
    | none => rw [hi] at hk; cases hk
    | some x =>
      rcases x with ⟨name, x⟩
      rw [hi] at hk
      simp only [hword, if_true] at hk
      have hx : x = u := by
        split at hk
        · exact congrArg Prod.snd (Option.some.inj hk)
        · exact congrArg Prod.snd (Option.some.inj hk)
      subst hx
      rcases h.identifier? hi hu with ⟨u', hi', hrel⟩
      refine ⟨u', ?_, hrel⟩
      rw [Grammar.word?, hi']
      simp only [hword, if_true]
      split at hk
      · cases hk
        rfl
      · cases hk
        rfl
  · have hfalse : accepts .word = false := by simpa using hword
    have hlt := word?_length hk
    rcases h.of_cons (isSpace_of_visible (visible_of_isNameStart hc)) with ⟨v', rfl, -⟩ | ⟨hstop, -⟩
    · rw [word?_eq_keyword? hfalse hc] at hk ⊢
      exact h.keyword? hk hu
    · rw [hstop] at hlt
      omega

/-- A number of one text is one of the other. -/
theorem number? {accepts : Token → Bool} {k : Token} {u : List Char}
    (h : Respaced gaps rest rest' t t') (hk : Grammar.number? accepts t = some (k, u))
    (hu : rest.length ≤ u.length) :
    ∃ u', Grammar.number? accepts t' = some (k, u') ∧ Respaced gaps rest rest' u u' := by
  rw [Grammar.number?] at hk ⊢
  by_cases hnumeral : accepts .numeral = true
  · rw [if_pos hnumeral] at hk ⊢
    rcases Option.map_eq_some_iff.1 hk with ⟨x, hx, he⟩
    obtain ⟨rfl, rfl⟩ : _ ∧ _ := by simpa using he
    rcases h.numeral? hx hu with ⟨u', hu', hrel⟩
    exact ⟨u', by rw [hu']; rfl, hrel⟩
  · rw [if_neg hnumeral] at hk ⊢
    by_cases hdigits : accepts .digits = true
    · rw [if_pos hdigits] at hk ⊢
      rcases Option.map_eq_some_iff.1 hk with ⟨x, hx, he⟩
      obtain ⟨rfl, rfl⟩ : _ ∧ _ := by simpa using he
      rcases h.digits? hx hu with ⟨u', hu', hrel⟩
      exact ⟨u', by rw [hu']; rfl, hrel⟩
    · rw [if_neg hdigits] at hk
      cases hk

end Respaced

/-! ## Tokens of code -/

theorem isMarkerPart_of_isBreak {c : Char} (h : isBreak c = true) : isMarkerPart c = false :=
  not_class_of_isBreak (fun _ => visible_of_isMarkerPart) (by decide) (by decide) h

/-- No token begins with a blank. -/
theorem lexCode_space {accepts : Token → Bool} {b : Char} (hb : isSpace b = true) (u : List Char) :
    lexCode accepts (b :: u) = none := by
  cases hk : lexCode accepts (b :: u) with
  | none => rfl
  | some x =>
    rcases lexCode_takes (k := x.1) (r := x.2) hk with ⟨⟨a, hne, ha, happ⟩, -⟩ | ⟨m, v, -, hv, -⟩
    · rcases List.exists_cons_of_ne_nil hne with ⟨c, a, rfl⟩
      cases happ
      have hvisible := ha b (List.mem_cons_self ..)
      rw [isBlank_of_isSpace hb] at hvisible
      cases hvisible
    · cases hv
      cases hb

namespace Respaced

/-- A marker of one text is one of the other. -/
theorem heredocMarker? {m u : List Char} (h : Respaced gaps rest rest' t t')
    (hm : Grammar.heredocMarker? t = some (m, u)) (hu : rest.length < u.length) :
    ∃ u', Grammar.heredocMarker? t' = some (m, u') ∧ Respaced gaps rest rest' u u' := by
  simp only [Grammar.heredocMarker?] at hm ⊢
  by_cases hempty : (t.dropWhile isSpace).isEmpty = true ∨
      (t.dropWhile isSpace).head? = some '\x00'
  · rw [if_pos hempty] at hm
    cases hm
  · rw [if_neg hempty] at hm
    obtain ⟨rfl, rfl⟩ : _ ∧ _ := by simpa using hm
    have hle := (List.dropWhile_suffix isMarkerPart (l := t.dropWhile isSpace)).length_le
    obtain ⟨hspaces, -⟩ := h.spaces (by omega)
    obtain ⟨c, v, hcv, hc⟩ := exists_cons_dropWhile (p := isSpace) (t := t)
      fun hnil => hempty (.inl (by rw [hnil]; rfl))
    rw [hcv] at hspaces hempty hu hle ⊢
    rcases hspaces.of_cons hc with ⟨v', hv', -⟩ | ⟨hstop, -⟩
    · rw [hv'] at hspaces ⊢
      have hempty' : ¬((c :: v').isEmpty = true ∨ (c :: v').head? = some '\x00') := hempty
      rcases hspaces.span (fun _ => isMarkerPart_of_isBreak) (Nat.le_of_lt hu) with ⟨hrel, htake⟩
      rw [if_neg hempty', htake]
      exact ⟨_, rfl, hrel⟩
    · rw [hstop] at hle hu
      omega

/-- A heredoc is opened in one text as in the other. -/
theorem heredoc? {m u : List Char} (h : Respaced gaps rest rest' t t')
    (hm : Grammar.heredoc? t = some (m, u)) (hu : rest.length < u.length) :
    ∃ u', Grammar.heredoc? t' = some (m, u') ∧ Respaced gaps rest rest' u u' := by
  rw [Grammar.heredoc?] at hm ⊢
  by_cases hdash : t.head? = some '-'
  · rcases List.head?_eq_some_iff.1 hdash with ⟨v, rfl⟩
    rw [if_pos hdash] at hm
    have hle := heredocMarker?_length hm
    rcases h.of_cons rfl with ⟨v', rfl, hv⟩ | ⟨hstop, -⟩
    · rw [if_pos List.head?_cons]
      exact hv.heredocMarker? hm hu
    · rw [← hstop] at hu
      simp only [List.drop_succ_cons, List.drop_zero, List.length_cons] at hle hu
      omega
  · have hdash' : ¬t'.head? = some '-' := fun hdash' => hdash (h.head?_of_head? rfl hdash')
    rw [if_neg hdash] at hm
    rw [if_neg hdash']
    exact h.heredocMarker? hm hu

/-- The rest of the opening of a heredoc, after its first character. -/
theorem heredocOpening {v v' m u : List Char} (h : Respaced gaps rest rest' ('<' :: v) v')
    (hm : Grammar.heredoc? v = some (m, u)) (hu : rest.length < u.length) :
    v'.head? = some '<' ∧ ∃ u', Grammar.heredoc? (v'.drop 1) = some (m, u') ∧
      Respaced gaps rest rest' u u' := by
  rcases h.of_cons rfl with ⟨w', rfl, hw⟩ | ⟨hstop, -⟩
  · exact ⟨rfl, hw.heredoc? hm hu⟩
  · have hle := heredoc?_length hm
    rw [← hstop, List.length_cons] at hu
    omega

/-- A token of code before the place.  The text of a heredoc goes on after it. -/
theorem lexCode {accepts : Token → Bool} {k : Token} {u : List Char}
    (h : Respaced gaps rest rest' t t') (hk : Grammar.lexCode accepts t = some (k, u))
    (hu : rest.length ≤ u.length) (hheredoc : ∀ m, k = .heredoc m → rest.length < u.length)
    (hslash : t = '/' :: rest → rest'.head? ≠ some '/') :
    ∃ u', Grammar.lexCode accepts t' = some (k, u') ∧ Respaced gaps rest rest' u u' := by
  have hlt := lexCode_length hk
  cases t with
  | nil => cases hk
  | cons c v =>
    have hc : isSpace c = false := by
      rw [Bool.eq_false_iff]
      intro hspace
      rw [lexCode_space hspace] at hk
      cases hk
    rcases h.of_cons hc with ⟨v', rfl, hv⟩ | ⟨hstop, -⟩
    · rw [Grammar.lexCode] at hk ⊢
      by_cases hname : isNameStart c = true
      · rw [if_pos hname] at hk ⊢
        exact word? hname h hk hu
      rw [if_neg hname] at hk ⊢
      by_cases hdigit : isDigit c = true
      · rw [if_pos hdigit] at hk ⊢
        exact h.number? hk hu
      rw [if_neg hdigit] at hk ⊢
      by_cases hopen : c = '<' ∧ v.head? = some '<' ∧ accepts (.heredoc []) = true
      · rw [if_pos hopen] at hk
        rcases Option.map_eq_some_iff.1 hk with ⟨⟨m, x⟩, hx, he⟩
        obtain ⟨rfl, rfl⟩ : _ ∧ _ := by simpa using he
        rcases List.head?_eq_some_iff.1 hopen.2.1 with ⟨w, rfl⟩
        have hx' : rest.length < x.length := hheredoc m rfl
        rcases hv.heredocOpening hx hx' with ⟨hnext, u', hu', hrel⟩
        rw [if_pos ⟨hopen.1, hnext, hopen.2.2⟩, hu']
        exact ⟨u', rfl, hrel⟩
      have hopen' : ¬(c = '<' ∧ v'.head? = some '<' ∧ accepts (.heredoc []) = true) :=
        fun ho => hopen ⟨ho.1, hv.head?_of_head? rfl ho.2.1, ho.2.2⟩
      rw [if_neg hopen] at hk
      rw [if_neg hopen']
      by_cases hcomment : c = '/' ∧ (v.head? = some '/' ∨ v.head? = some '*')
      · rw [if_pos hcomment] at hk
        cases hk
      have hcomment' : ¬(c = '/' ∧ (v'.head? = some '/' ∨ v'.head? = some '*')) := by
        rintro ⟨rfl, hslash' | hstar'⟩
        · by_cases hnext : v.head? = some '/'
          · exact hcomment ⟨rfl, .inl hnext⟩
          · rcases hv.stop_of_head? rfl hnext hslash' with ⟨rfl, rfl⟩
            exact hslash rfl hslash'
        · exact hcomment ⟨rfl, .inr (hv.head?_of_head? rfl hstar')⟩
      rw [if_neg hcomment] at hk
      rw [if_neg hcomment']
      exact h.symbol? hk hu
    · rw [hstop] at hlt
      omega

end Respaced

end HclQuery.Grammar
