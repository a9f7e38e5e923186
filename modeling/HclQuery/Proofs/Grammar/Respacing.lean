import HclQuery.Proofs.Grammar.Consumption
import HclQuery.Proofs.Text.Lines

/-!
# Texts that are spaced differently

Two texts may differ in the blanks around their newlines, and in what follows a certain place in
them, where the second one has a blank or a comment.

Main definitions:

- {lit}`Gap`: blanks with a newline among them.
- {lit}`Separates`: texts that begin with a blank or like a comment.
- {lit}`Respaced`: two texts that only differ in gaps, up to a place in them.

Main results:

- Theorem {lit}`Respaced.front`: what two such texts begin with.
- Theorems {lit}`Respaced.of_append` and {lit}`Respaced.to_append`: words stand in both or in none.
- Theorem {lit}`Respaced.span`: so do runs of characters.
-/

namespace HclQuery.Grammar

open Text

/-- Blanks with a newline among them. -/
structure Gap (x : List Char) : Prop where
  spaces : ∀ c ∈ x, isSpace c = true
  newline : '\n' ∈ x

/-- A gap begins with a blank. -/
theorem Gap.exists_cons {x : List Char} (hx : Gap x) : ∃ b y, x = b :: y ∧ isSpace b = true := by
  rcases List.exists_cons_of_ne_nil (List.ne_nil_of_mem hx.newline) with ⟨b, y, rfl⟩
  exact ⟨b, y, rfl, hx.spaces b (List.mem_cons_self ..)⟩

/-- A blank, or a character that comments begin with. -/
def isBreak (c : Char) : Bool :=
  isSpace c || c == '#' || c == '/'

/-- A text that begins with a blank or like a comment, so that a token ends in front of it. -/
def Separates (t : List Char) : Prop :=
  ∃ b u, t = b :: u ∧ isBreak b = true

theorem separates_newline (t : List Char) : Separates ('\n' :: t) :=
  ⟨'\n', t, rfl, rfl⟩

theorem isBreak_of_isSpace {c : Char} (h : isSpace c = true) : isBreak c = true := by
  simp [isBreak, h]

theorem isSpace_of_not_isBreak {c : Char} (h : isBreak c = false) : isSpace c = false := by
  rw [Bool.eq_false_iff]
  intro hspace
  rw [isBreak_of_isSpace hspace] at h
  cases h

/-- What breaks a text is in no class of visible characters that comments do not begin with. -/
theorem not_class_of_isBreak {p : Char → Bool} (hp : ∀ c, p c = true → isBlank c = false)
    (hhash : p '#' = false) (hslash : p '/' = false) {c : Char} (hc : isBreak c = true) :
    p c = false := by
  simp only [isBreak, Bool.or_eq_true, beq_iff_eq] at hc
  rcases hc with (hc | rfl) | rfl
  · exact not_class_of_isSpace hp hc
  · exact hhash
  · exact hslash

/-- Two texts that agree up to a place in them, where the first one goes on with `rest` and the
second one with `rest'`.  If `gaps` holds they may differ in gaps before the place. -/
inductive Respaced (gaps : Prop) (rest rest' : List Char) : List Char → List Char → Prop where
  /-- At the place. -/
  | stop (hrest' : Separates rest') : Respaced gaps rest rest' rest rest'
  /-- In front of a character of both. -/
  | char (c : Char) {t t' : List Char} (h : Respaced gaps rest rest' t t') :
    Respaced gaps rest rest' (c :: t) (c :: t')
  /-- In front of a gap in each. -/
  | gap {x x' t t' : List Char} (hgaps : gaps) (hx : Gap x) (hx' : Gap x')
    (h : Respaced gaps rest rest' t t') :
    Respaced gaps rest rest' (x ++ t) (x' ++ t')

variable {gaps : Prop} {rest rest' t t' : List Char}

namespace Respaced

/-! ## The front of two texts -/

/-- What two texts begin with. -/
inductive Front (gaps : Prop) (rest rest' t t' : List Char) : Prop where
  | stop (ht : t = rest) (ht' : t' = rest') (hrest' : Separates rest')
  | char (c : Char) (u u' : List Char) (ht : t = c :: u) (ht' : t' = c :: u')
    (h : Respaced gaps rest rest' u u')
  | gap (b b' : Char) (u u' : List Char) (ht : t = b :: u) (ht' : t' = b' :: u')
    (hb : isSpace b = true) (hb' : isSpace b' = true)

/-- Two texts that agree up to a place are at the place, or begin alike or with a gap. -/
theorem front (h : Respaced gaps rest rest' t t') : Front gaps rest rest' t t' := by
  cases h with
  | stop hrest' => exact .stop rfl rfl hrest'
  | char c h => exact .char c _ _ rfl rfl h
  | gap hgaps hx hx' h =>
    rcases hx.exists_cons with ⟨b, y, rfl, hb⟩
    rcases hx'.exists_cons with ⟨b', y', rfl, hb'⟩
    exact .gap b b' _ _ rfl rfl hb hb'

/-- A character that is no blank and stands in the first text before the place. -/
theorem of_cons {c : Char} {u : List Char} (h : Respaced gaps rest rest' (c :: u) t')
    (hc : isSpace c = false) :
    (∃ u', t' = c :: u' ∧ Respaced gaps rest rest' u u') ∨
      (c :: u = rest ∧ t' = rest' ∧ Separates rest') := by
  cases h.front with
  | stop ht ht' hrest' => exact .inr ⟨ht, ht', hrest'⟩
  | char d v v' ht ht' h =>
    cases ht
    exact .inl ⟨v', ht', h⟩
  | gap b b' v v' ht ht' hb hb' =>
    cases ht
    rw [hb] at hc
    cases hc

/-- A character that is no blank and stands in the second text before the place. -/
theorem to_cons_of_ne {c : Char} {u' : List Char} (h : Respaced gaps rest rest' t (c :: u'))
    (hc : isSpace c = false) (hne : t ≠ rest) :
    ∃ u, t = c :: u ∧ Respaced gaps rest rest' u u' := by
  cases h.front with
  | stop ht => exact absurd ht hne
  | char d v v' ht ht' h =>
    cases ht'
    exact ⟨v, ht, h⟩
  | gap b b' v v' ht ht' hb hb' =>
    cases ht'
    rw [hb'] at hc
    cases hc

/-- A character that breaks no text and stands in the second text. -/
theorem to_cons {c : Char} {u' : List Char} (h : Respaced gaps rest rest' t (c :: u'))
    (hc : isBreak c = false) : ∃ u, t = c :: u ∧ Respaced gaps rest rest' u u' := by
  cases h.front with
  | stop ht ht' hrest' =>
    rcases hrest' with ⟨b, v, rfl, hb⟩
    cases ht'
    rw [hb] at hc
    cases hc
  | char d v v' ht ht' h =>
    cases ht'
    exact ⟨v, ht, h⟩
  | gap b b' v v' ht ht' hb hb' =>
    cases ht'
    rw [isBreak_of_isSpace hb'] at hc
    cases hc

/-- A character that the second text begins with is one that the first one begins with. -/
theorem head?_of_head? {c : Char} (h : Respaced gaps rest rest' t t') (hc : isBreak c = false)
    (ht' : t'.head? = some c) : t.head? = some c := by
  rcases List.head?_eq_some_iff.1 ht' with ⟨u', rfl⟩
  rcases h.to_cons hc with ⟨u, rfl, -⟩
  rfl

/-- A character that is no blank and begins the second text alone is at the place. -/
theorem stop_of_head? {c : Char} (h : Respaced gaps rest rest' t t') (hc : isSpace c = false)
    (ht : t.head? ≠ some c) (ht' : t'.head? = some c) : t = rest ∧ t' = rest' := by
  rcases List.head?_eq_some_iff.1 ht' with ⟨u', rfl⟩
  cases h.front with
  | stop htrest ht' => exact ⟨htrest, ht'⟩
  | char d v v' htd ht' =>
    cases ht'
    exact absurd (by rw [htd]; rfl) ht
  | gap b b' v v' htb ht' hb hb' =>
    cases ht'
    rw [hb'] at hc
    cases hc

/-- What stands in front of the place in the first text. -/
theorem of_append {a u : List Char} (ha : ∀ c ∈ a, isSpace c = false)
    (h : Respaced gaps rest rest' (a ++ u) t') (hu : rest.length ≤ u.length) :
    ∃ u', t' = a ++ u' ∧ Respaced gaps rest rest' u u' := by
  induction a generalizing t' with
  | nil => exact ⟨t', rfl, h⟩
  | cons c a ih =>
    rcases h.of_cons (ha c (List.mem_cons_self ..)) with ⟨v', rfl, hv⟩ | ⟨hrest, -⟩
    · rcases ih (fun d hd => ha d (List.mem_cons_of_mem _ hd)) hv with ⟨u', rfl, hu'⟩
      exact ⟨u', rfl, hu'⟩
    · have hlength := congrArg List.length hrest
      simp only [List.length_cons, List.append_eq, List.length_append] at hlength
      omega

/-- What stands in front of the place in the second text. -/
theorem to_append {a u' : List Char} (ha : ∀ c ∈ a, isBreak c = false)
    (h : Respaced gaps rest rest' t (a ++ u')) :
    ∃ u, t = a ++ u ∧ Respaced gaps rest rest' u u' := by
  induction a generalizing t with
  | nil => exact ⟨t, rfl, h⟩
  | cons c a ih =>
    rcases h.to_cons (ha c (List.mem_cons_self ..)) with ⟨v, rfl, hv⟩
    rcases ih (fun d hd => ha d (List.mem_cons_of_mem _ hd)) hv with ⟨u, rfl, hu⟩
    exact ⟨u, rfl, hu⟩

/-! ## Runs of characters -/

/-- A run of characters that are no blanks. -/
theorem span {p : Char → Bool} (hp : ∀ c, isBreak c = true → p c = false)
    (h : Respaced gaps rest rest' t t') (hrest : rest.length ≤ (t.dropWhile p).length) :
    Respaced gaps rest rest' (t.dropWhile p) (t'.dropWhile p) ∧ t'.takeWhile p = t.takeWhile p := by
  induction h with
  | stop hrest' =>
    have hdrop := (List.dropWhile_suffix p).eq_of_length_le hrest
    have htake : rest.takeWhile p = [] := by
      have happ := List.takeWhile_append_dropWhile (p := p) (l := rest)
      rw [hdrop] at happ
      exact List.append_left_eq_self.1 happ
    have hstop := hrest'
    rcases hrest' with ⟨b, u, rfl, hb⟩
    have hneg : ¬p b = true := by simp [hp b hb]
    rw [hdrop, htake, List.dropWhile_cons_of_neg hneg, List.takeWhile_cons_of_neg hneg]
    exact ⟨.stop hstop, rfl⟩
  | char c h ih =>
    by_cases hc : p c = true
    · rw [List.dropWhile_cons_of_pos hc] at hrest ⊢
      rcases ih hrest with ⟨hdrop, htake⟩
      rw [List.dropWhile_cons_of_pos hc, List.takeWhile_cons_of_pos hc,
        List.takeWhile_cons_of_pos hc, htake]
      exact ⟨hdrop, rfl⟩
    · rw [List.dropWhile_cons_of_neg hc, List.dropWhile_cons_of_neg hc,
        List.takeWhile_cons_of_neg hc, List.takeWhile_cons_of_neg hc]
      exact ⟨.char c h, rfl⟩
  | gap hgaps hx hx' h =>
    have hgap := Respaced.gap hgaps hx hx' h
    rcases hx.exists_cons with ⟨b, y, rfl, hb⟩
    rcases hx'.exists_cons with ⟨b', y', rfl, hb'⟩
    have hneg : ¬p b = true := by simp [hp b (isBreak_of_isSpace hb)]
    have hneg' : ¬p b' = true := by simp [hp b' (isBreak_of_isSpace hb')]
    rw [List.cons_append, List.cons_append] at hgap ⊢
    rw [List.dropWhile_cons_of_neg hneg, List.dropWhile_cons_of_neg hneg',
      List.takeWhile_cons_of_neg hneg, List.takeWhile_cons_of_neg hneg']
    exact ⟨hgap, rfl⟩

/-- The blanks in front, and whether a newline is among them. -/
theorem spaces (h : Respaced gaps rest rest' t t')
    (hrest : rest.length < (t.dropWhile isSpace).length) :
    Respaced gaps rest rest' (t.dropWhile isSpace) (t'.dropWhile isSpace) ∧
      newlineFirst t' = newlineFirst t := by
  induction h with
  | stop =>
    have hle := (List.dropWhile_suffix isSpace (l := rest)).length_le
    omega
  | char c h ih =>
    by_cases hc : isSpace c = true
    · rw [List.dropWhile_cons_of_pos hc] at hrest ⊢
      rcases ih hrest with ⟨hdrop, hnewline⟩
      rw [newlineFirst, newlineFirst] at hnewline ⊢
      rw [List.dropWhile_cons_of_pos hc, List.takeWhile_cons_of_pos hc,
        List.takeWhile_cons_of_pos hc, List.contains_cons, List.contains_cons, hnewline]
      exact ⟨hdrop, rfl⟩
    · rw [newlineFirst, newlineFirst, List.dropWhile_cons_of_neg hc, List.dropWhile_cons_of_neg hc,
        List.takeWhile_cons_of_neg hc, List.takeWhile_cons_of_neg hc]
      exact ⟨.char c h, rfl⟩
  | gap hgaps hx hx' h ih =>
    have hnewline : ∀ {x t : List Char}, Gap x → newlineFirst (x ++ t) = true := by
      intro x t hx
      rw [newlineFirst, List.takeWhile_append_of_pos hx.spaces, List.contains_iff_mem]
      exact List.mem_append_left _ hx.newline
    rw [List.dropWhile_append_of_pos hx.spaces] at hrest ⊢
    rw [List.dropWhile_append_of_pos hx'.spaces, hnewline hx, hnewline hx']
    exact ⟨(ih hrest).1, rfl⟩

end Respaced

end HclQuery.Grammar
