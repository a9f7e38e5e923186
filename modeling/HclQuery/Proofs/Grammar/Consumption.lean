import HclQuery.Grammar.Token
import HclQuery.Proofs.Text.Blank
import Mathlib.Data.List.Infix

/-!
# What a token takes

Every token is the front of the text that is left once blanks and comments are skipped, so what is
left after it is a suffix of the text.  Tokens other than parts of templates and openings of
heredocs consist of visible characters.

Main definitions:

- {lit}`Takes`: visible characters stand between a text and what is left of it.

Main results:

- Theorem {lit}`lexCode_takes`: a token of code takes visible characters.
- Theorem {lit}`lexCode_suffix`, {lit}`part?_suffix`: what is left after a token is a suffix.
- Theorem {lit}`part?_finish`: a template ends with a quote or with its marker.
-/

namespace HclQuery.Grammar

open Text

/-! ## Visible characters -/

/-- Every blank between tokens is a blank. -/
theorem isBlank_of_isSpace {c : Char} (h : isSpace c = true) : isBlank c = true := by
  simp only [isSpace, Bool.or_eq_true, beq_iff_eq] at h
  rcases h with ((((rfl | rfl) | rfl) | rfl) | rfl) | rfl <;> rfl

/-- A class of characters in which no blank character is. -/
theorem visible_of {p : Char → Bool}
    (hp : blankRanges.all (fun r => (List.range' r.1 (r.2 + 1 - r.1)).all fun n =>
      !p (Char.ofNat n)) = true) {c : Char} (h : p c = true) : isBlank c = false := by
  rw [Bool.eq_false_iff]
  intro hblank
  have hnot := of_isBlank (p := fun c => !p c) hp hblank
  simp [h] at hnot

/-- A name begins with a visible character. -/
theorem visible_of_isNameStart {c : Char} (h : isNameStart c = true) : isBlank c = false := by
  rw [Bool.eq_false_iff]
  intro hblank
  have hne : c ≠ '_' := by
    rintro rfl
    cases hblank
  simp [isNameStart, isBlank_idStart hblank, hne] at h

theorem visible_of_isNamePart {c : Char} (h : isNamePart c = true) : isBlank c = false := by
  rw [Bool.eq_false_iff]
  intro hblank
  have hne : c ≠ '-' := by
    rintro rfl
    cases hblank
  simp [isNamePart, isBlank_idContinue hblank, hne] at h

theorem visible_of_isDigit {c : Char} (h : isDigit c = true) : isBlank c = false :=
  visible_of (by decide) h

/-- A hexadecimal digit, or an underscore between digits, is visible. -/
theorem visible_of_isHexPart {c : Char} (h : isHexPart c = true) : isBlank c = false :=
  visible_of (by decide) h

theorem visible_of_isMarkerPart {c : Char} (h : isMarkerPart c = true) : isBlank c = false :=
  visible_of (by decide) h

/-- A visible character is no blank between tokens. -/
theorem isSpace_of_visible {c : Char} (h : isBlank c = false) : isSpace c = false := by
  rw [Bool.eq_false_iff]
  intro hspace
  rw [isBlank_of_isSpace hspace] at h
  cases h

/-- No blank is in a class of visible characters. -/
theorem not_class_of_isSpace {p : Char → Bool} (hp : ∀ c, p c = true → isBlank c = false) {c : Char}
    (hc : isSpace c = true) : p c = false := by
  rw [Bool.eq_false_iff]
  intro hclass
  have hvisible := hp c hclass
  rw [isBlank_of_isSpace hc] at hvisible
  cases hvisible

/-- A blank of the grammar is no other character. -/
theorem ne_of_isSpace {b c : Char} (hb : isSpace b = true) (hc : isSpace c = false) : b ≠ c := by
  rintro rfl
  rw [hb] at hc
  cases hc

/-- A character of a class without blanks. -/
theorem isSpace_of_class {p : Char → Bool} (hp : ∀ c, isSpace c = true → p c = false) {c : Char}
    (hc : p c = true) : isSpace c = false := by
  rw [Bool.eq_false_iff]
  intro hspace
  rw [hp c hspace] at hc
  cases hc

/-- What is left after the longest run of a class begins with a character that is not in it. -/
theorem exists_cons_dropWhile {p : Char → Bool} {t : List Char} (hne : t.dropWhile p ≠ []) :
    ∃ c v, t.dropWhile p = c :: v ∧ p c = false := by
  rcases List.exists_cons_of_ne_nil hne with ⟨c, v, hcv⟩
  have hnot := List.head?_dropWhile_not p t
  rw [hcv] at hnot
  exact ⟨c, v, hcv, by simpa using hnot⟩

/-- Visible characters stand between a text and what is left of it. -/
def Takes (t r : List Char) : Prop :=
  ∃ a, a ≠ [] ∧ (∀ c ∈ a, isBlank c = false) ∧ t = a ++ r

theorem Takes.single {c : Char} (hc : isBlank c = false) (t : List Char) : Takes (c :: t) t := by
  refine ⟨[c], List.cons_ne_nil _ _, ?_, rfl⟩
  intro d hd
  rw [List.mem_singleton.1 hd]
  exact hc

/-- What is taken may be followed by more that is taken. -/
theorem Takes.trans {t u v : List Char} (h : Takes t u) (h' : u = v ∨ Takes u v) : Takes t v := by
  rcases h' with rfl | h'
  · exact h
  · rcases h with ⟨a, hne, ha, rfl⟩
    rcases h' with ⟨b, -, hb, rfl⟩
    refine ⟨a ++ b, ?_, ?_, (List.append_assoc a b v).symm⟩
    · intro hnil
      exact hne (List.append_eq_nil_iff.1 hnil).1
    · intro c hc
      rcases List.mem_append.1 hc with hc | hc
      · exact ha c hc
      · exact hb c hc

theorem Takes.cons {c : Char} (hc : isBlank c = false) {t v : List Char}
    (h : t = v ∨ Takes t v) : Takes (c :: t) v :=
  (Takes.single hc t).trans h

theorem Takes.suffix {t r : List Char} (h : Takes t r) : r <:+ t := by
  rcases h with ⟨a, -, -, rfl⟩
  exact List.suffix_append a r

/-- The characters of a class at the front of a text. -/
theorem takes_dropWhile {p : Char → Bool} (hp : ∀ c, p c = true → isBlank c = false)
    (t : List Char) : t = t.dropWhile p ∨ Takes t (t.dropWhile p) := by
  induction t with
  | nil => exact .inl rfl
  | cons c t ih =>
    by_cases hc : p c = true
    · rw [List.dropWhile_cons_of_pos hc]
      exact .inr (Takes.cons (hp c hc) ih)
    · rw [List.dropWhile_cons_of_neg hc]
      exact .inl rfl

/-! ## Words and numbers -/

/-- The rest of a name is visible. -/
theorem nameRest_visible (t : List Char) : ∀ c ∈ (nameRest t).1, isBlank c = false := by
  fun_induction nameRest t with
  | case1 => simp
  | case2 c hc => simpa using visible_of_isNamePart hc
  | case3 => simp
  | case4 c d t hc name rest hn ih =>
    rw [hn] at ih
    intro e he
    rcases List.mem_cons.1 he with rfl | he
    · exact visible_of_isNamePart hc
    · exact ih e he
  | case5 c d t hc hcolon name rest hn ih =>
    rw [hn] at ih
    rcases hcolon with ⟨rfl, rfl⟩
    intro e he
    rcases List.mem_cons.1 he with rfl | he
    · rfl
    · rcases List.mem_cons.1 he with rfl | he
      · rfl
      · exact ih e he
  | case6 => simp

/-- An identifier takes visible characters. -/
theorem identifier?_takes {t name rest : List Char} (h : identifier? t = some (name, rest)) :
    Takes t rest := by
  have happ := identifier?_append h
  cases t with
  | nil => simp [identifier?] at h
  | cons c t =>
    rw [identifier?] at h
    split at h
    · next hc =>
      obtain ⟨rfl, rfl⟩ : _ ∧ _ := by simpa using h
      refine ⟨_, List.cons_ne_nil _ _, ?_, happ.symm⟩
      intro d hd
      rcases List.mem_cons.1 hd with rfl | hd
      · exact visible_of_isNameStart hc
      · exact nameRest_visible t d hd
    · simp at h

/-- Digits take visible characters. -/
theorem digits?_takes {t rest : List Char} (h : digits? t = some rest) : Takes t rest := by
  cases t with
  | nil => simp [digits?] at h
  | cons c t =>
    rw [digits?] at h
    split at h
    · next hd =>
      have hc : isDigit c = true := by simpa using hd
      obtain rfl : t.dropWhile isDigit = rest := by simpa [hc] using h
      exact Takes.cons (visible_of_isDigit hc) (takes_dropWhile (fun _ => visible_of_isDigit) t)
    · simp at h

/-- An exponent takes visible characters, if it takes any. -/
theorem afterExponent_takes (t : List Char) : t = afterExponent t ∨ Takes t (afterExponent t) := by
  cases t with
  | nil => exact .inl rfl
  | cons e u =>
    rw [afterExponent]
    by_cases he : e = 'e' ∨ e = 'E'
    · have hvisible : isBlank e = false := by rcases he with rfl | rfl <;> rfl
      rw [if_pos he]
      by_cases hsign : u.head? = some '-' ∨ u.head? = some '+'
      · simp only [hsign, if_true]
        cases hd : digits? (u.drop 1) with
        | none => exact .inl rfl
        | some r =>
          have hu : Takes u (u.drop 1) := by
            cases u with
            | nil => simp at hsign
            | cons d u =>
              have hd : isBlank d = false := by
                rcases hsign with h | h <;> cases h <;> rfl
              exact Takes.single hd u
          exact .inr (Takes.cons hvisible (.inr (hu.trans (.inr (digits?_takes hd)))))
      · simp only [hsign, if_false]
        cases hd : digits? u with
        | none => exact .inl rfl
        | some r => exact .inr (Takes.cons hvisible (.inr (digits?_takes hd)))
    · rw [if_neg he]
      exact .inl rfl

/-- A fraction takes visible characters, if it takes any. -/
theorem afterFraction_takes (t : List Char) : t = afterFraction t ∨ Takes t (afterFraction t) := by
  unfold afterFraction
  split
  · next u =>
    cases hd : digits? u with
    | none => exact .inl rfl
    | some r =>
      exact .inr (Takes.cons rfl (.inr ((digits?_takes hd).trans (afterExponent_takes r))))
  · exact .inl rfl

/-- A numeral takes visible characters. -/
theorem numeral?_takes {t rest : List Char} (h : numeral? t = some rest) : Takes t rest := by
  unfold numeral? at h
  split at h
  · next u =>
    split at h
    · obtain rfl : _ = rest := by simpa using h
      exact Takes.cons rfl
        (.inr (Takes.cons rfl (takes_dropWhile (fun _ => visible_of_isHexPart) u)))
    · obtain rfl : _ = rest := by simpa using h
      exact Takes.single rfl _
  · cases hd : digits? t with
    | none => simp [hd] at h
    | some r =>
      obtain rfl : afterFraction r = rest := by simpa [hd] using h
      exact (digits?_takes hd).trans (afterFraction_takes r)

/-! ## Tokens of code -/

/-- A spelling of a table at the front of a text. -/
theorem takes_drop_spelling {α : Type} {table : List (List Char × α)} {p : List Char × α → Bool}
    (htable : ∀ s ∈ table, s.1 ≠ [] ∧ ∀ c ∈ s.1, isBlank c = false) {s : List Char × α}
    {t : List Char} (h : table.find? (fun s => s.1.isPrefixOf t && p s) = some s) :
    Takes t (t.drop s.1.length) := by
  rcases htable s (List.mem_of_find?_eq_some h) with ⟨hne, hvisible⟩
  have hp := List.find?_some h
  simp only [Bool.and_eq_true, List.isPrefixOf_iff_prefix] at hp
  rcases hp.1 with ⟨u, rfl⟩
  rw [List.drop_left]
  exact ⟨s.1, hne, hvisible, rfl⟩

/-- A table whose words consist of visible characters. -/
theorem visible_of_all {α : Type} {table : List (List Char × α)}
    (h : (table.all fun s => !s.1.isEmpty && s.1.all fun c => !isBlank c) = true) :
    ∀ s ∈ table, s.1 ≠ [] ∧ ∀ c ∈ s.1, isBlank c = false := by
  intro s hs
  have hword := List.all_eq_true.1 h s hs
  rw [Bool.and_eq_true, Bool.not_eq_true', List.isEmpty_eq_false_iff, List.all_eq_true] at hword
  exact ⟨hword.1, fun c hc => by simpa using hword.2 c hc⟩

/-- Every symbol is spelled with visible characters. -/
theorem spellings_visible : ∀ s ∈ spellings, s.1 ≠ [] ∧ ∀ c ∈ s.1, isBlank c = false :=
  visible_of_all (by decide)

theorem keywords_visible : ∀ s ∈ keywords, s.1 ≠ [] ∧ ∀ c ∈ s.1, isBlank c = false :=
  visible_of_all (by decide)

/-- A symbol takes visible characters, and opens no heredoc. -/
theorem symbol?_takes {accepts : Token → Bool} {t r : List Char} {k : Token}
    (h : symbol? accepts t = some (k, r)) : Takes t r ∧ ∀ m, k ≠ .heredoc m := by
  rcases Option.map_eq_some_iff.1 h with ⟨s, hs, he⟩
  obtain ⟨rfl, rfl⟩ : _ ∧ _ := by simpa using he
  exact ⟨takes_drop_spelling (p := fun s => accepts (.symbol s.2)) spellings_visible hs, nofun⟩

/-- A keyword takes visible characters, and opens no heredoc. -/
theorem keyword?_takes {accepts : Token → Bool} {t r : List Char} {k : Token}
    (h : keyword? accepts t = some (k, r)) : Takes t r ∧ ∀ m, k ≠ .heredoc m := by
  rcases Option.map_eq_some_iff.1 h with ⟨s, hs, he⟩
  obtain ⟨rfl, rfl⟩ : _ ∧ _ := by simpa using he
  exact ⟨takes_drop_spelling (p := fun s => accepts (.keyword s.2)) keywords_visible hs, nofun⟩

/-- A word takes visible characters, and opens no heredoc. -/
theorem word?_takes {accepts : Token → Bool} {t r : List Char} {k : Token}
    (h : word? accepts t = some (k, r)) : Takes t r ∧ ∀ m, k ≠ .heredoc m := by
  unfold word? at h
  split at h
  · simp at h
  · next hi =>
    have htakes := identifier?_takes hi
    split at h
    · obtain ⟨rfl, rfl⟩ : _ ∧ _ := by simpa using h
      exact ⟨htakes, nofun⟩
    · split at h
      · obtain ⟨rfl, rfl⟩ : _ ∧ _ := by simpa using h
        exact ⟨htakes, nofun⟩
      · exact keyword?_takes h

/-- A number takes visible characters, and opens no heredoc. -/
theorem number?_takes {accepts : Token → Bool} {t r : List Char} {k : Token}
    (h : number? accepts t = some (k, r)) : Takes t r ∧ ∀ m, k ≠ .heredoc m := by
  unfold number? at h
  split at h
  · rcases Option.map_eq_some_iff.1 h with ⟨r', hr, he⟩
    obtain ⟨rfl, rfl⟩ : _ ∧ _ := by simpa using he
    exact ⟨numeral?_takes hr, nofun⟩
  · split at h
    · rcases Option.map_eq_some_iff.1 h with ⟨r', hr, he⟩
      obtain ⟨rfl, rfl⟩ : _ ∧ _ := by simpa using he
      exact ⟨digits?_takes hr, nofun⟩
    · simp at h

/-- The opening of a heredoc names a marker of marker characters. -/
theorem heredoc?_spec {t m r : List Char} (h : heredoc? t = some (m, r)) :
    (∀ c ∈ m, isMarkerPart c = true) ∧ r <:+ t := by
  have hspec : ∀ u, heredocMarker? u = some (m, r) →
      (∀ c ∈ m, isMarkerPart c = true) ∧ r <:+ u := by
    intro u hu
    simp only [heredocMarker?] at hu
    split at hu
    · simp at hu
    · obtain ⟨rfl, rfl⟩ : _ ∧ _ := by simpa using hu
      exact ⟨List.all_eq_true.1 List.all_takeWhile,
        (List.dropWhile_suffix _).trans (List.dropWhile_suffix _)⟩
  rw [heredoc?] at h
  split at h
  · rcases hspec _ h with ⟨hm, hr⟩
    exact ⟨hm, hr.trans (List.drop_suffix 1 t)⟩
  · exact hspec t h

/-- A token of code takes visible characters, unless it opens a heredoc. -/
theorem lexCode_takes {accepts : Token → Bool} {t r : List Char} {k : Token}
    (h : lexCode accepts t = some (k, r)) :
    (Takes t r ∧ ∀ m, k ≠ .heredoc m) ∨
      ∃ m u, k = .heredoc m ∧ t = '<' :: u ∧ (∀ c ∈ m, isMarkerPart c = true) ∧ r <:+ t := by
  unfold lexCode at h
  split at h
  · simp at h
  · next c u =>
    split at h
    · exact .inl (word?_takes h)
    · split at h
      · exact .inl (number?_takes h)
      · split at h
        · next hopen =>
          rcases Option.map_eq_some_iff.1 h with ⟨x, hx, he⟩
          obtain ⟨rfl, rfl⟩ : _ ∧ _ := by simpa using he
          rcases heredoc?_spec (m := x.1) (r := x.2) hx with ⟨hm, hr⟩
          have hdrop : u.drop 1 <:+ c :: u := (List.drop_suffix 1 u).trans (List.suffix_cons c u)
          exact .inr ⟨x.1, u, rfl, by rw [hopen.1], hm, hr.trans hdrop⟩
        · split at h
          · simp at h
          · exact .inl (symbol?_takes h)

/-- A token of the code leaves the end of the text. -/
theorem lexCode_suffix {accepts : Token → Bool} {t r : List Char} {k : Token}
    (h : lexCode accepts t = some (k, r)) : r <:+ t := by
  rcases lexCode_takes h with ⟨htakes, -⟩ | ⟨m, u, -, -, -, hr⟩
  · exact htakes.suffix
  · exact hr

/-! ## Blanks, comments and parts of templates -/

mutual

/-- What is left once blanks and comments are skipped. -/
theorem skipTrivia_suffix (t : List Char) : skipTrivia t <:+ t := by
  cases t with
  | nil => rw [skipTrivia]
  | cons c t =>
    have hcons : t <:+ c :: t := List.suffix_cons c t
    rw [skipTrivia.eq_def]
    simp only
    split
    · exact (skipTrivia_suffix t).trans hcons
    · split
      · exact (skipLine_suffix t).trans hcons
      · split
        · cases t with
          | nil => exact List.suffix_refl _
          | cons d u =>
            have hcons₂ : u <:+ c :: d :: u := (List.suffix_cons d u).trans hcons
            simp only
            split
            · exact (skipLine_suffix u).trans hcons₂
            · split
              · rcases skipBlock_suffix (c :: d :: u) u with h | h
                · rw [h]
                · exact h.trans hcons₂
              · exact List.suffix_refl _
        · exact List.suffix_refl _

/-- What follows a line comment is the end of the text. -/
theorem skipLine_suffix (t : List Char) : skipLine t <:+ t := by
  cases t with
  | nil => rw [skipLine]
  | cons c t =>
    have hcons : t <:+ c :: t := List.suffix_cons c t
    rw [skipLine]
    split
    · exact (skipTrivia_suffix t).trans hcons
    · split
      · exact List.suffix_refl _
      · exact (skipLine_suffix t).trans hcons

/-- What follows a block comment is the end of the text, or the whole. -/
theorem skipBlock_suffix (whole t : List Char) :
    skipBlock whole t = whole ∨ skipBlock whole t <:+ t := by
  cases t with
  | nil => rw [skipBlock]; exact .inl rfl
  | cons c t =>
    have hcons : t <:+ c :: t := List.suffix_cons c t
    rw [skipBlock.eq_def]
    simp only
    split
    · exact .inl rfl
    · split
      · cases t with
        | nil => exact .inl rfl
        | cons d u =>
          simp only
          split
          · exact .inr ((skipTrivia_suffix u).trans ((List.suffix_cons d u).trans hcons))
          · exact (skipBlock_suffix whole (d :: u)).imp id fun h => h.trans hcons
      · exact (skipBlock_suffix whole t).imp id fun h => h.trans hcons

end

/-- An escape leaves the end of the text. -/
theorem escape?_suffix {t u : List Char} (h : escape? t = some u) : u <:+ t := by
  have hhex : ∀ {n t u}, hexDigits? n t = some u → u <:+ t := by
    intro n t u h
    unfold hexDigits? at h
    split at h
    · obtain rfl : t.drop n = u := by simpa using h
      exact List.drop_suffix n t
    · simp at h
  unfold escape? at h
  split at h
  · simp at h
  · next c t =>
    have hcons : t <:+ c :: t := List.suffix_cons c t
    split at h
    · obtain rfl : t = u := by simpa using h
      exact hcons
    · split at h
      · exact (hhex h).trans hcons
      · split at h
        · exact (hhex h).trans hcons
        · simp at h

/-- Reading a marker leaves the end of the text. -/
theorem marker_suffix (c : Char) (sequence : Part) (t : List Char) :
    (marker c sequence t).2 <:+ t := by
  unfold marker
  split
  · exact List.suffix_refl _
  · next d u =>
    have hcons : u <:+ d :: u := List.suffix_cons d u
    split
    · exact hcons
    · split
      · split
        · exact (List.drop_suffix 1 u).trans hcons
        · exact hcons
      · exact List.suffix_refl _

/-- No marker character ends a template. -/
theorem marker_ne_finish (c : Char) {sequence : Part} (t : List Char) (h : sequence ≠ .finish) :
    (marker c sequence t).1 ≠ .finish := by
  unfold marker
  split
  · simp
  · split
    · exact h
    · split <;> simp

/-- A sequence takes its brace. -/
theorem marker_chunk_or_lt (c : Char) (sequence : Part) (t : List Char) :
    (marker c sequence t).1 = .chunk ∨ (marker c sequence t).2.length < t.length := by
  unfold marker
  split
  · exact .inl rfl
  · split
    · exact .inr (Nat.lt_succ_self _)
    · split <;> exact .inl rfl

/-- Looking for the marker of a heredoc leaves the end of the text. -/
theorem matchMarker_suffix (expected t : List Char) : (matchMarker expected t).2 <:+ t := by
  fun_induction matchMarker expected t with
  | case1 => exact List.suffix_refl _
  | case2 => exact List.suffix_refl _
  | case3 ms c t ih => exact ih.trans (List.suffix_cons c t)
  | case4 => exact List.suffix_refl _

/-- A marker that is found stands in front of what is left. -/
theorem matchMarker_true {expected t u : List Char} (h : matchMarker expected t = (true, u)) :
    t = expected ++ u := by
  fun_induction matchMarker expected t with
  | case1 => simpa using h
  | case2 => simp at h
  | case3 ms c t ih => rw [ih h, List.cons_append]
  | case4 => simp at h

/-- Reading a line of a heredoc leaves the end of the text. -/
theorem heredocLine_suffix (expected t : List Char) : (heredocLine expected t).2 <:+ t := by
  have hm := matchMarker_suffix expected t
  unfold heredocLine
  split
  · next h => rw [h] at hm; exact hm
  · next u h =>
    rw [h] at hm
    simp only
    split
    · exact hm
    · exact ((List.drop_suffix 1 _).trans (List.dropWhile_suffix _)).trans hm

/-- What is left after a part is a suffix of the text after the blanks in front of it. -/
theorem part?_suffix {context : Context} {sequences ending : Bool} {t u : List Char} {p : Part}
    (h : part? context sequences ending t = some (p, u)) : u <:+ t.dropWhile isSpace := by
  unfold part? at h
  split at h
  · simp at h
  · next c v hv =>
    rw [hv]
    have hcons : v <:+ c :: v := List.suffix_cons c v
    have done : ∀ {q : Part × List Char}, q.2 <:+ v → some q = some (p, u) → u <:+ c :: v := by
      intro q hq he
      obtain rfl : q = (p, u) := by simpa using he
      exact hq.trans hcons
    split at h
    · simp at h
    · split at h
      · exact done (List.suffix_refl v) h
      · split at h
        · exact done (marker_suffix ..) h
        · split at h
          · exact done (marker_suffix ..) h
          · split at h
            · next expected _ =>
              split at h
              · obtain he : heredocLine expected (c :: v) = (p, u) := by simpa using h
                have hline := heredocLine_suffix expected (c :: v)
                rw [he] at hline
                exact hline
              · exact done (List.suffix_refl v) h
            · split at h
              · cases hx : escape? v with
                | none => simp [hx] at h
                | some w =>
                  have hw := escape?_suffix hx
                  exact done (q := (.chunk, w)) hw (by simpa [hx] using h)
              · exact done (List.suffix_refl v) h

/-- A line of a heredoc is a piece of it or its end, and opens no template. -/
theorem heredocLine_ne_sequence (expected t : List Char) {p : Part} {u : List Char}
    (hchunk : p ≠ .chunk) (hfinish : p ≠ .finish) : heredocLine expected t ≠ (p, u) := by
  unfold heredocLine
  rintro h
  split at h
  · cases h
    exact hchunk rfl
  · simp only at h
    split at h
    · cases h
      exact hfinish rfl
    · cases h
      exact hchunk rfl

/-- A line that ends a heredoc begins with its marker, which is not empty. -/
theorem heredocLine_finish {expected v u : List Char} {c : Char} (hc : isSpace c = false)
    (h : heredocLine expected (c :: v) = (.finish, u)) :
    c :: v = expected ++ u ∧ expected ≠ [] := by
  unfold heredocLine at h
  split at h
  · simp at h
  · next w hw =>
    have hmatch := matchMarker_true hw
    simp only at h
    split at h
    · next hnewline =>
      obtain rfl : w = u := by simpa using h
      refine ⟨hmatch, ?_⟩
      rintro rfl
      have hline : isLineSpace c = false := by simp [isLineSpace, hc]
      rw [← hmatch.trans (List.nil_append _),
        List.dropWhile_cons_of_neg (by simp [hline])] at hnewline
      obtain rfl : c = '\n' := by simpa using hnewline
      cases hc
    · simp at h

/-- A part that is no stretch of text takes more than the blanks in front of it. -/
theorem part?_lt {context : Context} {sequences ending : Bool} {t u : List Char} {p : Part}
    (h : part? context sequences ending t = some (p, u)) (hp : p ≠ .chunk) :
    u.length < (t.dropWhile isSpace).length := by
  unfold part? at h
  split at h
  · cases h
  · next c v hv =>
    have hspace : isSpace c = false := by
      have hnot := List.head?_dropWhile_not isSpace t
      rw [hv] at hnot
      simpa using hnot
    have hmarker : ∀ s, some (marker c s v) = some (p, u) → u.length < (c :: v).length := by
      intro s he
      have hle := marker_length_le c s v
      rw [Option.some.inj he] at hle
      exact Nat.lt_succ_of_le hle
    rw [hv]
    split at h
    · cases h
    · split at h
      · cases h
        exact Nat.lt_succ_self _
      · split at h
        · exact hmarker _ h
        · split at h
          · exact hmarker _ h
          · split at h
            · next expected _ =>
              split at h
              · have hline := Option.some.inj h
                cases p with
                | finish =>
                  rcases heredocLine_finish hspace hline with ⟨happ, hne⟩
                  have hpos := List.length_pos_iff.2 hne
                  rw [happ, List.length_append]
                  omega
                | chunk => exact absurd rfl hp
                | interpolation | directive =>
                  exact absurd hline (heredocLine_ne_sequence expected _ (by simp) (by simp))
              · cases h
                exact absurd rfl hp
            · split at h
              · rcases Option.map_eq_some_iff.1 h with ⟨w, -, he⟩
                cases he
                exact absurd rfl hp
              · cases h
                exact absurd rfl hp

/-- A template ends with a quote or with its marker. -/
theorem part?_finish {context : Context} {sequences ending : Bool} {t u : List Char}
    (h : part? context sequences ending t = some (.finish, u)) :
    ∃ m, t.dropWhile isSpace = m ++ u ∧ m ≠ [] ∧ (m = ['"'] ∨ context = .heredoc m) := by
  unfold part? at h
  split at h
  · simp at h
  · next c v hv =>
    have hspace : isSpace c = false := by
      have hnot := List.head?_dropWhile_not isSpace t
      rw [hv] at hnot
      simpa using hnot
    have hmarker : ∀ s, s ≠ .finish → some (marker c s v) ≠ some (.finish, u) :=
      fun s hs he => marker_ne_finish c v hs (congrArg Prod.fst (Option.some.inj he))
    split at h
    · simp at h
    · split at h
      · next hquote =>
        obtain rfl : v = u := by simpa using h
        refine ⟨['"'], ?_, List.cons_ne_nil _ _, .inl rfl⟩
        rw [hv, hquote.1]
        rfl
      · split at h
        · exact absurd h (hmarker _ (by decide))
        · split at h
          · exact absurd h (hmarker _ (by decide))
          · split at h
            · next expected _ =>
              split at h
              · rcases heredocLine_finish hspace (Option.some.inj h) with ⟨happ, hne⟩
                exact ⟨expected, hv.trans happ, hne, .inr rfl⟩
              · simp at h
            · split at h
              · cases hx : escape? v with
                | none => simp [hx] at h
                | some w => simp [hx] at h
              · simp at h

end HclQuery.Grammar
