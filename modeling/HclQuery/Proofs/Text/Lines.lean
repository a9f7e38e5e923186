import HclQuery.Text.Blank
import HclQuery.Text.Lines

/-!
# Trimming and lines

A text is its trimmed text between blanks, and trimming gives the same text for all of them.  The
lines of a text are texts without newlines, and every such sequence is the lines of a text.

Main definitions:

- {lit}`Blanks`: texts of blank characters.
- {lit}`Trimmed`: texts with visible characters at both ends.

Main results:

- Theorem {lit}`exists_trim`: a text is its trimmed text between blanks.
- Theorem {lit}`trim_append`: trimming cuts the blanks around a text.
- Theorem {lit}`lines_append`: the lines of two texts with a newline between them.
- Theorem {lit}`lines_unlines`: the lines of joined lines.
-/

namespace HclQuery.Text

/-! ## Blanks -/

/-- A text of blank characters. -/
def Blanks (t : List Char) : Prop :=
  ∀ c ∈ t, isBlank c = true

theorem Blanks.nil : Blanks [] := by
  intro c hc
  cases hc

/-- Blanks are blanks in any order. -/
theorem Blanks.reverse {t : List Char} (h : Blanks t) : Blanks t.reverse := by
  intro c hc
  exact h c (List.mem_reverse.1 hc)

theorem blanks_replicate (n : Nat) : Blanks (List.replicate n ' ') := by
  intro c hc
  rw [List.eq_of_mem_replicate hc]
  rfl

theorem forall_takeWhile {α : Type} (p : α → Bool) (t : List α) :
    ∀ c ∈ t.takeWhile p, p c = true :=
  List.all_eq_true.1 List.all_takeWhile

/-- Blanks in front of a text are trimmed. -/
theorem trimStart_append {a : List Char} (h : Blanks a) (t : List Char) :
    trimStart (a ++ t) = trimStart t :=
  List.dropWhile_append_of_pos h

/-- Blanks after a text are trimmed. -/
theorem trimEnd_append {b : List Char} (h : Blanks b) (t : List Char) :
    trimEnd (t ++ b) = trimEnd t := by
  rw [trimEnd, trimEnd, List.reverse_append, List.dropWhile_append_of_pos h.reverse]

/-- Only blanks are trimmed at the front. -/
theorem exists_trimStart (t : List Char) : ∃ a, Blanks a ∧ t = a ++ trimStart t :=
  ⟨t.takeWhile isBlank, forall_takeWhile isBlank t, List.takeWhile_append_dropWhile.symm⟩

theorem exists_trimEnd (t : List Char) : ∃ b, Blanks b ∧ t = trimEnd t ++ b := by
  rcases exists_trimStart t.reverse with ⟨a, ha, ht⟩
  refine ⟨a.reverse, ha.reverse, ?_⟩
  have hreverse := congrArg List.reverse ht
  rw [List.reverse_reverse, List.reverse_append] at hreverse
  exact hreverse

/-- A text is its trimmed text between blanks. -/
theorem exists_trim (t : List Char) :
    ∃ a b, Blanks a ∧ Blanks b ∧ t = a ++ (trim t ++ b) := by
  rcases exists_trimStart t with ⟨a, ha, hstart⟩
  rcases exists_trimEnd (trimStart t) with ⟨b, hb, hend⟩
  refine ⟨a, b, ha, hb, ?_⟩
  rw [trim, ← hend]
  exact hstart

/-! ## Trimmed texts -/

/-- A text that begins with a visible character, or is empty. -/
def BeginsVisible (t : List Char) : Prop :=
  ∀ c, t.head? = some c → isBlank c = false

/-- A text that ends in a visible character, or is empty. -/
def EndsVisible (t : List Char) : Prop :=
  ∀ c, t.getLast? = some c → isBlank c = false

/-- A text with visible characters at both ends, or none at all. -/
structure Trimmed (t : List Char) : Prop where
  begins : BeginsVisible t
  ends : EndsVisible t

/-- Nothing is trimmed in front of a visible character. -/
theorem BeginsVisible.trimStart_eq {t : List Char} (h : BeginsVisible t) : trimStart t = t := by
  cases t with
  | nil => rfl
  | cons c t => exact trimStart_of_not_blank (h c rfl)

theorem EndsVisible.trimEnd_eq {t : List Char} (h : EndsVisible t) : trimEnd t = t := by
  have hbegins : BeginsVisible t.reverse := by
    intro c hc
    exact h c (by rw [← hc, List.head?_reverse])
  have hstart := hbegins.trimStart_eq
  rw [trimStart] at hstart
  rw [trimEnd, hstart, List.reverse_reverse]

theorem Trimmed.trim_eq {t : List Char} (h : Trimmed t) : trim t = t := by
  rw [trim, h.begins.trimStart_eq, h.ends.trimEnd_eq]

/-- A text trimmed at the front begins visibly. -/
theorem beginsVisible_trimStart (t : List Char) : BeginsVisible (trimStart t) := by
  intro c hc
  have hnot := List.head?_dropWhile_not isBlank t
  rw [trimStart] at hc
  rw [hc] at hnot
  simpa using hnot

/-- Texts that begin visibly are those that trimming the front does not change. -/
theorem trimStart_eq_self_iff (t : List Char) : trimStart t = t ↔ BeginsVisible t := by
  constructor
  · intro h
    rw [← h]
    exact beginsVisible_trimStart t
  · exact BeginsVisible.trimStart_eq

/-- A text trimmed at the end ends visibly. -/
theorem endsVisible_trimEnd (t : List Char) : EndsVisible (trimEnd t) := by
  intro c hc
  rw [trimEnd, List.getLast?_reverse] at hc
  exact beginsVisible_trimStart t.reverse c hc

/-- What begins with a visible character does so without the blanks at its end. -/
theorem BeginsVisible.trimEnd {t : List Char} (h : BeginsVisible t) :
    BeginsVisible (trimEnd t) := by
  rcases exists_trimEnd t with ⟨b, -, ht⟩
  intro c hc
  apply h c
  rw [ht, List.head?_append, hc, Option.some_or]

/-- A text that begins visibly is not trimmed away. -/
theorem BeginsVisible.trimEnd_ne_nil {t : List Char} (h : BeginsVisible t) (hne : t ≠ []) :
    Text.trimEnd t ≠ [] := by
  intro hnil
  rcases exists_trimEnd t with ⟨b, hb, ht⟩
  rw [hnil, List.nil_append] at ht
  rcases List.exists_cons_of_ne_nil hne with ⟨c, u, rfl⟩
  have hblank : isBlank c = true := hb c (ht ▸ List.mem_cons_self ..)
  rw [h c rfl] at hblank
  cases hblank

theorem trimmed_trim (t : List Char) : Trimmed (trim t) :=
  ⟨(beginsVisible_trimStart t).trimEnd, endsVisible_trimEnd _⟩

theorem trim_trim (t : List Char) : trim (trim t) = trim t :=
  (trimmed_trim t).trim_eq

theorem trimEnd_trimEnd (t : List Char) : trimEnd (trimEnd t) = trimEnd t :=
  (endsVisible_trimEnd t).trimEnd_eq

/-- Trimming cuts the blanks around a text. -/
theorem trim_append {a b : List Char} (ha : Blanks a) (hb : Blanks b) (t : List Char) :
    trim (a ++ (t ++ b)) = trim t := by
  rcases exists_trimStart t with ⟨a', ha', ht⟩
  rw [trim, trim, trimStart_append ha]
  by_cases hnil : trimStart t = []
  · have hblank : Blanks t := by
      rw [hnil, List.append_nil] at ht
      rw [ht]
      exact ha'
    rw [trimStart_append hblank, hnil]
    have hb' := trimStart_append hb []
    rw [List.append_nil] at hb'
    rw [hb']
    rfl
  · have hstart : trimStart (t ++ b) = trimStart t ++ b := by
      rcases List.exists_cons_of_ne_nil hnil with ⟨c, u, hcu⟩
      have hc : isBlank c = false := beginsVisible_trimStart t c (by rw [hcu]; rfl)
      calc trimStart (t ++ b) = trimStart (a' ++ (trimStart t ++ b)) := by
            rw [← List.append_assoc, ← ht]
        _ = trimStart (trimStart t ++ b) := trimStart_append ha' _
        _ = trimStart t ++ b := by rw [hcu, List.cons_append, trimStart_of_not_blank hc]
    rw [hstart, trimEnd_append hb]

/-- Trimming the end first makes no difference. -/
theorem trim_trimEnd (t : List Char) : trim (trimEnd t) = trim t := by
  rcases exists_trimEnd t with ⟨b, hb, ht⟩
  have happend := trim_append Blanks.nil hb (trimEnd t)
  rw [List.nil_append, ← ht] at happend
  exact happend.symm

/-- A text that ends in a visible character is not trimmed away. -/
theorem EndsVisible.trim_ne_nil {t : List Char} (h : EndsVisible t) (hne : t ≠ []) :
    trim t ≠ [] := by
  intro hnil
  rcases exists_trim t with ⟨a, b, ha, hb, ht⟩
  rw [hnil, List.nil_append] at ht
  have hvisible := h _ (List.getLast?_eq_some_getLast hne)
  have hmem : t.getLast hne ∈ a ++ b := ht ▸ List.getLast_mem hne
  have hblank : isBlank (t.getLast hne) = true := by
    rcases List.mem_append.1 hmem with hmem | hmem
    · exact ha _ hmem
    · exact hb _ hmem
  rw [hvisible] at hblank
  cases hblank

/-! ## Lines -/

theorem lines_newline (t : List Char) : lines ('\n' :: t) = [] :: lines t := by
  rw [lines, if_pos rfl]

/-- A character that is no newline belongs to the first line. -/
theorem lines_cons {c : Char} (hc : c ≠ '\n') {t l : List Char} {ls : List (List Char)}
    (hl : lines t = l :: ls) : lines (c :: t) = (c :: l) :: ls := by
  rw [lines, if_neg hc, hl]

theorem exists_lines (t : List Char) : ∃ l ls, lines t = l :: ls :=
  List.exists_cons_of_ne_nil (lines_ne_nil t)

/-- No line has a newline in it. -/
theorem not_mem_of_mem_lines {t l : List Char} (h : l ∈ lines t) : '\n' ∉ l := by
  induction t generalizing l with
  | nil =>
    rw [lines, List.mem_singleton] at h
    rw [h]
    exact List.not_mem_nil
  | cons c t ih =>
    by_cases hc : c = '\n'
    · rw [hc, lines_newline] at h
      rcases List.mem_cons.1 h with rfl | h
      · exact List.not_mem_nil
      · exact ih h
    · rcases exists_lines t with ⟨m, ls, hl⟩
      rw [lines_cons hc hl] at h
      rw [hl] at ih
      rcases List.mem_cons.1 h with rfl | h
      · exact List.not_mem_cons_of_ne_of_not_mem (Ne.symm hc) (ih (List.mem_cons_self ..))
      · exact ih (List.mem_cons_of_mem m h)

/-- The characters of a line are those of the text. -/
theorem mem_of_mem_lines {t l : List Char} {c : Char} (h : l ∈ lines t) (hc : c ∈ l) : c ∈ t := by
  induction t generalizing l with
  | nil =>
    rw [lines, List.mem_singleton] at h
    rw [h] at hc
    cases hc
  | cons d t ih =>
    by_cases hd : d = '\n'
    · rw [hd, lines_newline] at h
      rcases List.mem_cons.1 h with rfl | h
      · cases hc
      · exact List.mem_cons_of_mem d (ih h hc)
    · rcases exists_lines t with ⟨m, ls, hl⟩
      rw [lines_cons hd hl] at h
      rw [hl] at ih
      rcases List.mem_cons.1 h with rfl | h
      · rcases List.mem_cons.1 hc with rfl | hc
        · exact List.mem_cons_self ..
        · exact List.mem_cons_of_mem d (ih (List.mem_cons_self ..) hc)
      · exact List.mem_cons_of_mem d (ih (List.mem_cons_of_mem m h) hc)

/-- The first line of a text has nothing that does not stand in the text. -/
theorem head?_of_lines {t l : List Char} {ls : List (List Char)} (hl : lines t = l :: ls) {c : Char}
    (hc : l.head? = some c) : t.head? = some c := by
  cases t with
  | nil =>
    cases hl
    cases hc
  | cons d t =>
    by_cases hd : d = '\n'
    · rw [hd, lines_newline] at hl
      cases hl
      cases hc
    · rcases exists_lines t with ⟨m, ms, hm⟩
      rw [lines_cons hd hm] at hl
      cases hl
      exact hc

/-- A text without newlines is one line. -/
theorem lines_of_not_mem {l : List Char} (h : '\n' ∉ l) : lines l = [l] := by
  induction l with
  | nil => rfl
  | cons c l ih =>
    have hc : c ≠ '\n' := fun heq => h (heq ▸ List.mem_cons_self ..)
    exact lines_cons hc (ih fun hmem => h (List.mem_cons_of_mem _ hmem))

/-- The lines of two texts with a newline between them. -/
theorem lines_append (t u : List Char) : lines (t ++ '\n' :: u) = lines t ++ lines u := by
  induction t with
  | nil => exact lines_newline u
  | cons c t ih =>
    by_cases hc : c = '\n'
    · rw [hc, List.cons_append, lines_newline, lines_newline, ih, List.cons_append]
    · rcases exists_lines t with ⟨l, ls, hl⟩
      rw [hl] at ih
      rw [List.cons_append, lines_cons hc hl, lines_cons hc ih]
      rfl

/-- A newline ends the line in front of it. -/
theorem lines_append_newline {l : List Char} (h : '\n' ∉ l) (t : List Char) :
    lines (l ++ '\n' :: t) = l :: lines t := by
  rw [lines_append, lines_of_not_mem h, List.singleton_append]

/-- Lines after each other have a newline between them. -/
theorem unlines_append {a b : List (List Char)} (ha : a ≠ []) (hb : b ≠ []) :
    unlines (a ++ b) = unlines a ++ '\n' :: unlines b := by
  induction a with
  | nil => exact absurd rfl ha
  | cons l a ih =>
    rcases List.exists_cons_of_ne_nil hb with ⟨m, b', rfl⟩
    cases a with
    | nil => rfl
    | cons m a =>
      rw [List.cons_append, List.cons_append, unlines_cons_cons, unlines_cons_cons,
        ← List.cons_append, ih (List.cons_ne_nil m a), List.append_assoc, List.cons_append]

/-- The lines of joined lines. -/
theorem lines_unlines {ls : List (List Char)} (hne : ls ≠ []) (h : ∀ l ∈ ls, '\n' ∉ l) :
    lines (unlines ls) = ls := by
  induction ls with
  | nil => exact absurd rfl hne
  | cons l ls ih =>
    have hl : '\n' ∉ l := h l (List.mem_cons_self ..)
    cases ls with
    | nil => exact lines_of_not_mem hl
    | cons m ls =>
      rw [unlines_cons_cons, lines_append_newline hl,
        ih (List.cons_ne_nil m ls) fun l' hl' => h l' (List.mem_cons_of_mem _ hl')]

/-- A text with a newline in it has more than one line. -/
theorem mem_newline_iff (t : List Char) : '\n' ∈ t ↔ 1 < (lines t).length := by
  induction t with
  | nil => simp [lines]
  | cons c t ih =>
    by_cases hc : c = '\n'
    · have hpos : 0 < (lines t).length := List.length_pos_iff.2 (lines_ne_nil t)
      simp only [hc, lines_newline, List.mem_cons, true_or, List.length_cons, true_iff]
      omega
    · have hc' : '\n' ≠ c := fun heq => hc heq.symm
      rcases exists_lines t with ⟨l, ls, hl⟩
      rw [hl] at ih
      simpa [lines_cons hc hl, hc'] using ih

/-- The first line of a text that begins with a visible character begins with it. -/
theorem BeginsVisible.of_lines {t l : List Char} {ls : List (List Char)} (h : BeginsVisible t)
    (hl : lines t = l :: ls) : BeginsVisible l := by
  have ht : unlines (l :: ls) = t := by
    rw [← hl]
    exact unlines_lines t
  intro c hc
  apply h c
  cases ls with
  | nil =>
    rw [← ht]
    exact hc
  | cons m ls => rw [← ht, unlines_cons_cons, List.head?_append, hc, Option.some_or]

/-- What begins with a visible character does not begin with a newline. -/
theorem BeginsVisible.of_newline {l t : List Char} (h : BeginsVisible (l ++ '\n' :: t)) :
    l ≠ [] := by
  rintro rfl
  have hvisible := h '\n' rfl
  cases hvisible

/-- A text ends visibly if what it ends with does. -/
theorem EndsVisible.append {t : List Char} (h : EndsVisible t) (hne : t ≠ []) (l : List Char) :
    EndsVisible (l ++ t) := by
  intro c hc
  have hd := List.getLast?_eq_some_getLast hne
  rw [List.getLast?_append, hd, Option.some_or] at hc
  exact h c (hd.trans hc)

/-- What a text ends with ends visibly if the text does. -/
theorem EndsVisible.of_append {l t : List Char} (h : EndsVisible (l ++ t)) : EndsVisible t := by
  intro c hc
  apply h c
  rw [List.getLast?_append, hc, Option.some_or]

/-- What ends in a visible character does not end right after a newline. -/
theorem EndsVisible.of_newline {l t : List Char} (h : EndsVisible (l ++ '\n' :: t)) :
    EndsVisible t ∧ t ≠ [] := by
  have htail : EndsVisible (['\n'] ++ t) := h.of_append
  refine ⟨htail.of_append, ?_⟩
  rintro rfl
  have hvisible := htail '\n' rfl
  cases hvisible

end HclQuery.Text
