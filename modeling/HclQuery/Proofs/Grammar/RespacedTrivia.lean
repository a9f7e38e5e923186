import HclQuery.Proofs.Grammar.Respacing

/-!
# Blanks and comments in texts that are spaced differently

A line comment ends at the newline of a gap, and a block comment does not notice it, so the same is
skipped of two texts that agree up to a place.  What is skipped beyond the place, a block comment
that is not closed, and a slash right in front of the place are left out of account.

Main definitions:

- {lit}`Unclosed`: a text that begins with a block comment that is not closed.
- {lit}`SkipsAlike`: what is left of two texts agrees.

Main results:

- Theorem {lit}`skipTrivia_append`: blanks in front of a text are skipped.
- Theorem {lit}`Respaced.skipsAlike`: the same blanks and comments are skipped.
-/

namespace HclQuery.Grammar

variable {gaps : Prop} {rest rest' t t' : List Char}

/-! ## Blanks and comments -/

/-- Blanks in front of a text are skipped. -/
theorem skipTrivia_append {x : List Char} (hx : ∀ c ∈ x, isSpace c = true) (t : List Char) :
    skipTrivia (x ++ t) = skipTrivia t := by
  induction x with
  | nil => rfl
  | cons c x ih =>
    rw [List.cons_append, skipTrivia.eq_def]
    simp only [hx c (List.mem_cons_self ..), if_true]
    exact ih fun d hd => hx d (List.mem_cons_of_mem _ hd)

/-- The newline of a gap ends a line comment. -/
theorem skipLine_append {x : List Char} (hx : Gap x) (t : List Char) :
    skipLine (x ++ t) = skipTrivia t := by
  rcases hx with ⟨hspaces, hnewline⟩
  induction x with
  | nil => cases hnewline
  | cons c x ih =>
    have htail : ∀ d ∈ x, isSpace d = true := fun d hd => hspaces d (List.mem_cons_of_mem _ hd)
    rw [List.cons_append, skipLine]
    by_cases hc : c = '\n'
    · rw [if_pos hc]
      exact skipTrivia_append htail t
    · have hzero : c ≠ '\x00' := by
        rintro rfl
        have hspace := hspaces _ (List.mem_cons_self ..)
        cases hspace
      rw [if_neg hc, if_neg hzero]
      rcases List.mem_cons.1 hnewline with heq | hmem
      · exact absurd heq.symm hc
      · exact ih htail hmem

/-- Blanks in a block comment are passed over. -/
theorem skipBlock_append {x : List Char} (hx : ∀ c ∈ x, isSpace c = true) (whole t : List Char) :
    skipBlock whole (x ++ t) = skipBlock whole t := by
  induction x with
  | nil => rfl
  | cons c x ih =>
    have hc := hx c (List.mem_cons_self ..)
    have hzero : c ≠ '\x00' := by
      rintro rfl
      cases hc
    have hstar : c ≠ '*' := by
      rintro rfl
      cases hc
    rw [List.cons_append, skipBlock.eq_def]
    simp only [hzero, hstar, if_false]
    exact ih fun d hd => hx d (List.mem_cons_of_mem _ hd)

/-- A block comment that is not closed: it is left where it stands. -/
def Unclosed (t : List Char) : Prop :=
  ∃ u, t = '/' :: '*' :: u

/-- What is left of two texts after blanks and comments, unless it begins after the place.  A slash
right in front of the place is left out of account if it begins a comment of the second text. -/
def Skipped (gaps : Prop) (rest rest' u u' : List Char) : Prop :=
  rest.length < u.length →
    Respaced gaps rest rest' u u' ∨ Unclosed u ∨ u = '/' :: rest ∧ rest'.head? = some '/'

/-- Nothing is said of what begins after the place. -/
theorem Skipped.of_le {u u' : List Char} (h : u.length ≤ rest.length) :
    Skipped gaps rest rest' u u' :=
  fun hlt => absurd hlt (Nat.not_lt.2 h)

/-- Texts that agree up to the place are left alike. -/
theorem Skipped.of_respaced {u u' : List Char} (h : Respaced gaps rest rest' u u') :
    Skipped gaps rest rest' u u' :=
  fun _ => .inl h

/-- What is left of a block comment, unless it is not closed. -/
def SkippedBlock (gaps : Prop) (rest rest' whole u u' : List Char) : Prop :=
  rest.length < u.length →
    Respaced gaps rest rest' u u' ∨ Unclosed u ∨ u = '/' :: rest ∧ rest'.head? = some '/' ∨
      u = whole

/-- What is left of two texts is left of two block comments as well. -/
theorem Skipped.block {u u' : List Char} (h : Skipped gaps rest rest' u u') (whole : List Char) :
    SkippedBlock gaps rest rest' whole u u' := by
  intro hlt
  rcases h hlt with h | h | h
  · exact .inl h
  · exact .inr (.inl h)
  · exact .inr (.inr (.inl h))

/-- Nothing is said of a block comment that reaches the place. -/
theorem SkippedBlock.of_le {whole u u' v : List Char} (h : u = whole ∨ u <:+ v)
    (hv : v.length ≤ rest.length) : SkippedBlock gaps rest rest' whole u u' := by
  intro hlt
  rcases h with rfl | h
  · exact .inr (.inr (.inr rfl))
  · have hle := h.length_le
    omega

/-- What is left after a block comment is what is left of the text. -/
theorem SkippedBlock.skipped {u u' v : List Char}
    (h : SkippedBlock gaps rest rest' ('/' :: '*' :: v) u u') : Skipped gaps rest rest' u u' := by
  intro hlt
  rcases h hlt with h | h | h | rfl
  · exact .inl h
  · exact .inr (.inl h)
  · exact .inr (.inr h)
  · exact .inr (.inl ⟨v, rfl⟩)

/-- What is skipped of two texts, of their line comments and of their block comments. -/
structure SkipsAlike (gaps : Prop) (rest rest' t t' : List Char) : Prop where
  trivia : Skipped gaps rest rest' (skipTrivia t) (skipTrivia t')
  line : Skipped gaps rest rest' (skipLine t) (skipLine t')
  block : ∀ whole whole', SkippedBlock gaps rest rest' whole (skipBlock whole t)
    (skipBlock whole' t')

namespace Respaced

/-- The rest of a text after a slash, which may begin a comment. -/
theorem skipTrivia_slash {u u' : List Char} (h : Respaced gaps rest rest' u u')
    (ih : ∀ v v', v.length < u.length → Respaced gaps rest rest' v v' →
      SkipsAlike gaps rest rest' v v') :
    Skipped gaps rest rest' (Grammar.skipTrivia ('/' :: u)) (Grammar.skipTrivia ('/' :: u')) := by
  have hplain : ∀ v : List Char, v.head? ≠ some '/' → v.head? ≠ some '*' →
      Grammar.skipTrivia ('/' :: v) = '/' :: v := by
    intro v hslash hstar
    cases v with
    | nil => rw [Grammar.skipTrivia.eq_def]; rfl
    | cons d v =>
      have hd : d ≠ '/' := fun heq => hslash (by rw [heq]; rfl)
      have hd' : d ≠ '*' := fun heq => hstar (by rw [heq]; rfl)
      rw [Grammar.skipTrivia.eq_def]
      simp [isSpace, hd, hd']
  have hline : ∀ v : List Char, Grammar.skipTrivia ('/' :: '/' :: v) = Grammar.skipLine v := by
    intro v
    rw [Grammar.skipTrivia.eq_def]
    rfl
  have hblock : ∀ v : List Char, Grammar.skipTrivia ('/' :: '*' :: v) =
      Grammar.skipBlock ('/' :: '*' :: v) v := by
    intro v
    rw [Grammar.skipTrivia.eq_def]
    rfl
  by_cases hslash : u.head? = some '/'
  · rcases List.head?_eq_some_iff.1 hslash with ⟨v, rfl⟩
    rcases h.of_cons rfl with ⟨v', rfl, hv⟩ | ⟨hstop, -⟩
    · rw [hline, hline]
      exact (ih v v' (by simp) hv).line
    · rw [hline, ← hstop]
      have hle := (skipLine_suffix v).length_le
      exact Skipped.of_le (Nat.le_trans hle (by simp))
  by_cases hstar : u.head? = some '*'
  · rcases List.head?_eq_some_iff.1 hstar with ⟨v, rfl⟩
    rcases h.of_cons rfl with ⟨v', rfl, hv⟩ | ⟨hstop, -⟩
    · rw [hblock, hblock]
      exact ((ih v v' (by simp) hv).block _ _).skipped
    · rw [hblock, ← hstop]
      exact (SkippedBlock.of_le (skipBlock_suffix _ v) (by simp)).skipped
  have hstar' : u'.head? ≠ some '*' := fun heq => hstar (h.head?_of_head? rfl heq)
  by_cases hslash' : u'.head? = some '/'
  · rcases h.stop_of_head? rfl hslash hslash' with ⟨rfl, rfl⟩
    rw [hplain u hslash hstar]
    exact fun _ => .inr (.inr ⟨rfl, hslash'⟩)
  · rw [hplain u hslash hstar, hplain u' hslash' hstar']
    exact .of_respaced (.char '/' h)

/-- The rest of a block comment after a star, which may close it. -/
theorem skipBlock_star {u u' : List Char} (h : Respaced gaps rest rest' u u')
    (ih : ∀ v v', v.length ≤ u.length → Respaced gaps rest rest' v v' →
      SkipsAlike gaps rest rest' v v')
    (whole whole' : List Char) :
    SkippedBlock gaps rest rest' whole (Grammar.skipBlock whole ('*' :: u))
      (Grammar.skipBlock whole' ('*' :: u')) := by
  have hplain : ∀ whole v : List Char, v.head? ≠ some '/' →
      Grammar.skipBlock whole ('*' :: v) = Grammar.skipBlock whole v := by
    intro whole v hslash
    cases v with
    | nil => rw [Grammar.skipBlock.eq_def, Grammar.skipBlock.eq_def]; rfl
    | cons d v =>
      have hd : d ≠ '/' := fun heq => hslash (by rw [heq]; rfl)
      rw [Grammar.skipBlock.eq_def]
      simp [hd]
  have hclosed : ∀ whole v : List Char,
      Grammar.skipBlock whole ('*' :: '/' :: v) = Grammar.skipTrivia v := by
    intro whole v
    rw [Grammar.skipBlock.eq_def]
    rfl
  by_cases hslash : u.head? = some '/'
  · rcases List.head?_eq_some_iff.1 hslash with ⟨v, rfl⟩
    rcases h.of_cons rfl with ⟨v', rfl, hv⟩ | ⟨hstop, -⟩
    · rw [hclosed, hclosed]
      exact (ih v v' (by simp) hv).trivia.block whole
    · rw [hclosed, ← hstop]
      have hle := skipTrivia_length_le v
      exact (Skipped.of_le (Nat.le_trans hle (by simp))).block whole
  · rw [hplain whole u hslash]
    by_cases hslash' : u'.head? = some '/'
    · rcases h.stop_of_head? rfl hslash hslash' with ⟨rfl, rfl⟩
      exact .of_le (skipBlock_suffix whole u) (Nat.le_refl _)
    · rw [hplain whole' u' hslash']
      exact (ih u u' (Nat.le_refl _) h).block whole whole'

/-- The blanks and comments in front of a text, by its first character. -/
theorem skipTrivia_char (c : Char) (h : Respaced gaps rest rest' t t')
    (ih : ∀ v v', v.length ≤ t.length → Respaced gaps rest rest' v v' →
      SkipsAlike gaps rest rest' v v') :
    Skipped gaps rest rest' (Grammar.skipTrivia (c :: t)) (Grammar.skipTrivia (c :: t')) := by
  have htail := ih t t' (Nat.le_refl _) h
  by_cases hslash : c = '/'
  · subst hslash
    exact h.skipTrivia_slash fun v v' hv => ih v v' (Nat.le_of_lt hv)
  rw [Grammar.skipTrivia.eq_def, Grammar.skipTrivia.eq_def (c :: t')]
  simp only [hslash, if_false]
  by_cases hspace : isSpace c = true
  · rw [if_pos hspace, if_pos hspace]
    exact htail.trivia
  rw [if_neg hspace, if_neg hspace]
  by_cases hhash : c = '#'
  · rw [if_pos hhash, if_pos hhash]
    exact htail.line
  rw [if_neg hhash, if_neg hhash]
  exact .of_respaced (.char c h)

/-- The rest of a line comment, by its first character. -/
theorem skipLine_char (c : Char) (h : Respaced gaps rest rest' t t')
    (htail : SkipsAlike gaps rest rest' t t') :
    Skipped gaps rest rest' (Grammar.skipLine (c :: t)) (Grammar.skipLine (c :: t')) := by
  rw [Grammar.skipLine, Grammar.skipLine]
  by_cases hnewline : c = '\n'
  · rw [if_pos hnewline, if_pos hnewline]
    exact htail.trivia
  rw [if_neg hnewline, if_neg hnewline]
  by_cases hzero : c = '\x00'
  · rw [if_pos hzero, if_pos hzero]
    exact .of_respaced (.char c h)
  rw [if_neg hzero, if_neg hzero]
  exact htail.line

/-- The rest of a block comment, by its first character. -/
theorem skipBlock_char (c : Char) (h : Respaced gaps rest rest' t t')
    (ih : ∀ v v', v.length ≤ t.length → Respaced gaps rest rest' v v' →
      SkipsAlike gaps rest rest' v v')
    (whole whole' : List Char) :
    SkippedBlock gaps rest rest' whole (Grammar.skipBlock whole (c :: t))
      (Grammar.skipBlock whole' (c :: t')) := by
  by_cases hstar : c = '*'
  · subst hstar
    exact h.skipBlock_star ih whole whole'
  rw [Grammar.skipBlock.eq_def, Grammar.skipBlock.eq_def whole']
  simp only [hstar, if_false]
  by_cases hzero : c = '\x00'
  · rw [if_pos hzero, if_pos hzero]
    exact fun _ => .inr (.inr (.inr rfl))
  rw [if_neg hzero, if_neg hzero]
  exact (ih t t' (Nat.le_refl _) h).block whole whole'

/-- The same blanks and comments are skipped. -/
theorem skipsAlike (h : Respaced gaps rest rest' t t') : SkipsAlike gaps rest rest' t t' := by
  -- A comment goes on after its two opening characters, so the induction is on the length.
  induction hn : t.length using Nat.strongRecOn generalizing t t' with | ind n ih =>
  cases h with
  | stop =>
    refine ⟨.of_le (skipTrivia_length_le _), .of_le (skipLine_length_le _), ?_⟩
    intro whole whole'
    exact .of_le (skipBlock_suffix whole _) (Nat.le_refl _)
  | @gap x x' t t' hgaps hx hx' h =>
    rcases hx.exists_cons with ⟨b, y, rfl, -⟩
    have htail := ih t.length (by rw [← hn, List.length_append, List.length_cons]; omega) h rfl
    refine ⟨?_, ?_, ?_⟩
    · rw [skipTrivia_append hx.spaces, skipTrivia_append hx'.spaces]
      exact htail.trivia
    · rw [skipLine_append hx, skipLine_append hx']
      exact htail.trivia
    · intro whole whole'
      rw [skipBlock_append hx.spaces, skipBlock_append hx'.spaces]
      exact htail.block whole whole'
  | @char c t t' h =>
    have hle : ∀ v v', v.length ≤ t.length → Respaced gaps rest rest' v v' →
        SkipsAlike gaps rest rest' v v' := by
      intro v v' hv hrel
      exact ih v.length (by rw [← hn, List.length_cons]; omega) hrel rfl
    have htail := hle t t' (Nat.le_refl _) h
    exact ⟨h.skipTrivia_char c hle, h.skipLine_char c htail, h.skipBlock_char c hle⟩

end Respaced

end HclQuery.Grammar
