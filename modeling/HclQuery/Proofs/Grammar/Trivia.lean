import HclQuery.Proofs.Grammar.RespacedTrivia

/-!
# Blanks and complete comments

What may be put between two tokens is a sequence of blanks, of line comments with their newlines and
of block comments that are closed.  It is skipped, and every text of lines in which nothing is left
after skipping is such a sequence.

Main definitions:

- {lit}`IsTrivia`: blanks and complete comments.

Main results:

- Theorem {lit}`IsTrivia.skipTrivia_append`: blanks and complete comments are skipped.
- Theorem {lit}`IsTrivia.separates`: a token ends in front of them.
- Theorem {lit}`isTrivia_of_skipTrivia`: lines in which nothing is left consist of them.
-/

namespace HclQuery.Grammar

/-- The text of a line comment after its mark.  No comment holds a NUL. -/
structure LineBody (b : List Char) : Prop where
  newline : '\n' ∉ b
  zero : '\x00' ∉ b

/-- The text of a block comment between its marks. -/
structure BlockBody (b : List Char) : Prop where
  closing : ¬['*', '/'] <:+: b
  zero : '\x00' ∉ b

/-- Blanks and complete comments. -/
inductive IsTrivia : List Char → Prop where
  | nil : IsTrivia []
  | space {c : Char} {g : List Char} (hc : isSpace c = true) (h : IsTrivia g) : IsTrivia (c :: g)
  | hash {b g : List Char} (hb : LineBody b) (h : IsTrivia g) : IsTrivia ('#' :: (b ++ '\n' :: g))
  | slashes {b g : List Char} (hb : LineBody b) (h : IsTrivia g) :
    IsTrivia ('/' :: '/' :: (b ++ '\n' :: g))
  | block {b g : List Char} (hb : BlockBody b) (h : IsTrivia g) :
    IsTrivia ('/' :: '*' :: (b ++ '*' :: '/' :: g))

/-! ## Skipping -/

/-- A hash begins a line comment. -/
theorem skipTrivia_hash (t : List Char) : skipTrivia ('#' :: t) = skipLine t := by
  rw [skipTrivia.eq_def]
  rfl

/-- Two slashes begin a line comment. -/
theorem skipTrivia_slashes (t : List Char) : skipTrivia ('/' :: '/' :: t) = skipLine t := by
  rw [skipTrivia.eq_def]
  rfl

/-- A slash and a star begin a block comment. -/
theorem skipTrivia_block (t : List Char) :
    skipTrivia ('/' :: '*' :: t) = skipBlock ('/' :: '*' :: t) t := by
  rw [skipTrivia.eq_def]
  rfl

/-- A line comment is skipped with its newline. -/
theorem skipLine_body {b : List Char} (hb : LineBody b) (t : List Char) :
    skipLine (b ++ '\n' :: t) = skipTrivia t := by
  rcases hb with ⟨hnewline, hzero⟩
  induction b with
  | nil =>
    rw [List.nil_append, skipLine]
    rfl
  | cons c b ih =>
    rw [List.mem_cons, not_or] at hnewline hzero
    rw [List.cons_append, skipLine, if_neg (Ne.symm hnewline.1), if_neg (Ne.symm hzero.1)]
    exact ih hnewline.2 hzero.2

/-- The body of a block comment goes on as one. -/
theorem BlockBody.tail {c : Char} {b : List Char} (h : BlockBody (c :: b)) : BlockBody b :=
  ⟨fun hb => h.closing (hb.trans (List.suffix_cons c b).isInfix),
    fun hb => h.zero (List.mem_cons_of_mem _ hb)⟩

/-- A character in front of a body makes a body, unless it is a NUL or closes the comment. -/
theorem BlockBody.cons {c : Char} {b : List Char} (h : BlockBody b) (hzero : c ≠ '\x00')
    (hc : ¬(c = '*' ∧ b.head? = some '/')) : BlockBody (c :: b) := by
  constructor
  · intro hclosing
    rcases List.infix_cons_iff.1 hclosing with ⟨t, ht⟩ | hclosing
    · cases ht
      exact hc ⟨rfl, rfl⟩
    · exact h.closing hclosing
  · rw [List.mem_cons, not_or]
    exact ⟨Ne.symm hzero, h.zero⟩

/-- A block comment is skipped with what closes it. -/
theorem skipBlock_body {b : List Char} (hb : BlockBody b) (whole t : List Char) :
    skipBlock whole (b ++ '*' :: '/' :: t) = skipTrivia t := by
  induction b with
  | nil =>
    rw [List.nil_append, skipBlock.eq_def]
    rfl
  | cons c b ih =>
    have hzero : c ≠ '\x00' := fun heq => hb.zero (heq ▸ List.mem_cons_self ..)
    rw [List.cons_append, skipBlock.eq_def]
    simp only [hzero, if_false]
    by_cases hstar : c = '*'
    · subst hstar
      simp only [if_true]
      -- The star closes nothing: the text goes on with a character of the comment or another star.
      cases b with
      | nil => exact ih hb.tail
      | cons d b =>
        have hslash : d ≠ '/' := by
          rintro rfl
          exact hb.closing (List.prefix_append ['*', '/'] b).isInfix
        simp only [List.cons_append, hslash, if_false]
        exact ih hb.tail
    · simp only [hstar, if_false]
      exact ih hb.tail

namespace IsTrivia

variable {g g' : List Char}

/-- Blanks and complete comments are skipped. -/
theorem skipTrivia_append (h : IsTrivia g) (t : List Char) :
    skipTrivia (g ++ t) = skipTrivia t := by
  induction h with
  | nil => rfl
  | space hc h ih =>
    rw [List.cons_append, skipTrivia.eq_def]
    simp only [hc, if_true]
    exact ih
  | hash hb h ih =>
    rw [List.cons_append, List.append_assoc, List.cons_append, skipTrivia_hash, skipLine_body hb,
      ih]
  | slashes hb h ih =>
    rw [List.cons_append, List.cons_append, List.append_assoc, List.cons_append, skipTrivia_slashes,
      skipLine_body hb, ih]
  | block hb h ih =>
    rw [List.cons_append, List.cons_append, List.append_assoc, List.cons_append, List.cons_append,
      skipTrivia_block, skipBlock_body hb, ih]

/-- Blanks are trivia. -/
theorem of_spaces (h : ∀ c ∈ g, isSpace c = true) : IsTrivia g := by
  induction g with
  | nil => exact .nil
  | cons c g ih =>
    rw [List.forall_mem_cons] at h
    exact .space h.1 (ih h.2)

/-- Trivia after trivia is trivia. -/
theorem append (h : IsTrivia g) (h' : IsTrivia g') : IsTrivia (g ++ g') := by
  induction h with
  | nil => exact h'
  | space hc h ih => exact .space hc ih
  | @hash b g hb h ih =>
    rw [List.cons_append, List.append_assoc]
    exact .hash hb ih
  | @slashes b g hb h ih =>
    rw [List.cons_append, List.cons_append, List.append_assoc]
    exact .slashes hb ih
  | @block b g hb h ih =>
    rw [List.cons_append, List.cons_append, List.append_assoc]
    exact .block hb ih

/-- A token ends in front of a blank or a comment. -/
theorem separates (h : IsTrivia g) (hne : g ≠ []) (t : List Char) : Separates (g ++ t) := by
  cases h with
  | nil => exact absurd rfl hne
  | space hc h => exact ⟨_, _, rfl, isBreak_of_isSpace hc⟩
  | hash hb h => exact ⟨_, _, rfl, rfl⟩
  | slashes hb h => exact ⟨_, _, rfl, rfl⟩
  | block hb h => exact ⟨_, _, rfl, rfl⟩

end IsTrivia

/-! ## Texts in which nothing is left -/

/-- The last character of a text, if it is not the first one, is the last of what follows that. -/
theorem getLast?_of_cons {c d : Char} {t : List Char} (h : (c :: t).getLast? = some d)
    (hc : c ≠ d) : t.getLast? = some d := by
  cases t with
  | nil => exact absurd (Option.some.inj h) hc
  | cons e t => rwa [List.getLast?_cons_cons] at h

/-- What follows the first character ends like the text, if it is anything. -/
theorem getLast?_tail {c d : Char} {t : List Char} (h : (c :: t).getLast? = some d) :
    t = [] ∨ t.getLast? = some d := by
  cases t with
  | nil => exact .inl rfl
  | cons e t => exact .inr (by rwa [List.getLast?_cons_cons] at h)

mutual

/-- Lines in which nothing is left consist of blanks and complete comments. -/
theorem isTrivia_of_skipTrivia (t : List Char) (h : skipTrivia t = [])
    (hlast : t = [] ∨ t.getLast? = some '\n') : IsTrivia t := by
  cases t with
  | nil => exact .nil
  | cons c t =>
    have hlast := hlast.resolve_left (List.cons_ne_nil c t)
    rw [skipTrivia.eq_def] at h
    simp only at h
    by_cases hspace : isSpace c = true
    · rw [if_pos hspace] at h
      exact .space hspace (isTrivia_of_skipTrivia t h (getLast?_tail hlast))
    rw [if_neg hspace] at h
    by_cases hhash : c = '#'
    · subst hhash
      rw [if_pos rfl] at h
      rcases exists_of_skipLine t h (getLast?_of_cons hlast (by decide)) with ⟨b, g, hb, hg, rfl⟩
      exact .hash hb hg
    rw [if_neg hhash] at h
    by_cases hslash : c = '/'
    · subst hslash
      rw [if_pos rfl] at h
      have hlast' := getLast?_of_cons hlast (by decide)
      cases t with
      | nil => cases h
      | cons d u =>
        simp only at h
        by_cases hline : d = '/'
        · subst hline
          rw [if_pos rfl] at h
          rcases exists_of_skipLine u h (getLast?_of_cons hlast' (by decide)) with
            ⟨b, g, hb, hg, rfl⟩
          exact .slashes hb hg
        rw [if_neg hline] at h
        by_cases hblock : d = '*'
        · subst hblock
          rw [if_pos rfl] at h
          rcases exists_of_skipBlock _ u (List.cons_ne_nil _ _) h
            (getLast?_of_cons hlast' (by decide)) with ⟨b, g, hb, hg, rfl⟩
          exact .block hb hg
        · rw [if_neg hblock] at h
          cases h
    · rw [if_neg hslash] at h
      cases h

/-- A text of complete lines that a line comment leaves nothing of is the comment and trivia. -/
theorem exists_of_skipLine (t : List Char) (h : skipLine t = []) (hlast : t.getLast? = some '\n') :
    ∃ b g, LineBody b ∧ IsTrivia g ∧ t = b ++ '\n' :: g := by
  cases t with
  | nil => cases hlast
  | cons c t =>
    rw [skipLine] at h
    by_cases hnewline : c = '\n'
    · subst hnewline
      rw [if_pos rfl] at h
      exact ⟨[], t, ⟨List.not_mem_nil, List.not_mem_nil⟩,
        isTrivia_of_skipTrivia t h (getLast?_tail hlast), rfl⟩
    rw [if_neg hnewline] at h
    by_cases hzero : c = '\x00'
    · rw [if_pos hzero] at h
      cases h
    rw [if_neg hzero] at h
    rcases exists_of_skipLine t h (getLast?_of_cons hlast hnewline) with ⟨b, g, hb, hg, rfl⟩
    refine ⟨c :: b, g, ⟨?_, ?_⟩, hg, rfl⟩
    · rw [List.mem_cons, not_or]
      exact ⟨Ne.symm hnewline, hb.newline⟩
    · rw [List.mem_cons, not_or]
      exact ⟨Ne.symm hzero, hb.zero⟩

/-- A text of complete lines that a block comment leaves nothing of is the comment and trivia. -/
theorem exists_of_skipBlock (whole t : List Char) (hwhole : whole ≠ [])
    (h : skipBlock whole t = []) (hlast : t.getLast? = some '\n') :
    ∃ b g, BlockBody b ∧ IsTrivia g ∧ t = b ++ '*' :: '/' :: g := by
  cases t with
  | nil => cases hlast
  | cons c t =>
    rw [skipBlock.eq_def] at h
    simp only at h
    by_cases hzero : c = '\x00'
    · rw [if_pos hzero] at h
      exact absurd h hwhole
    rw [if_neg hzero] at h
    cases t with
    | nil =>
      split at h
      · exact absurd h hwhole
      · rw [skipBlock] at h
        exact absurd h hwhole
    | cons d u =>
      rw [List.getLast?_cons_cons] at hlast
      by_cases hclosing : c = '*' ∧ d = '/'
      · rcases hclosing with ⟨rfl, rfl⟩
        rw [if_pos rfl] at h
        have htail := getLast?_of_cons hlast (by decide)
        exact ⟨[], u, ⟨by simp, List.not_mem_nil⟩, isTrivia_of_skipTrivia u h (.inr htail), rfl⟩
      · have hrest : skipBlock whole (d :: u) = [] := by
          split at h
          · next hstar =>
            have hslash : d ≠ '/' := fun hslash => hclosing ⟨hstar, hslash⟩
            simpa only [hslash, if_false] using h
          · exact h
        rcases exists_of_skipBlock whole (d :: u) hwhole hrest hlast with ⟨b, g, hb, hg, hbg⟩
        refine ⟨c :: b, g, hb.cons hzero ?_, hg, by rw [hbg, List.cons_append]⟩
        rintro ⟨hstar, hslash⟩
        rcases List.head?_eq_some_iff.1 hslash with ⟨b, rfl⟩
        cases hbg
        exact hclosing ⟨hstar, rfl⟩

end

end HclQuery.Grammar
