import HclQuery.Layout.Reindent
import HclQuery.Proofs.Text.Blank
import HclQuery.Proofs.Text.Lines

/-!
# Re-indenting a value again

Blanks at the ends of a line do not matter to the scanner, so it goes through the lines of a
re-indented value as it went through those of the value.  What was re-indented at one depth is
therefore re-indented at another as the value itself.

Main results:

- Theorem {lit}`Scanner.scan_trimEnd`: blanks at the end of a line do not matter.
- Theorem {lit}`continuation_cases`: the ways in which a line is written.
- Theorem {lit}`lines_reindent`: the lines of a re-indented value.
- Theorem {lit}`reindent_reindent`: only the last depth counts.
- Theorem {lit}`reindent_of_single`: a value on one line is just trimmed.
- Theorem {lit}`lineStates_reindent`: the scanner stands the same in front of every line.
- Theorem {lit}`reindent_forgets`: re-indenting forgets how a value was indented before.
-/

namespace HclQuery.Layout

open Text

/-! ## Blanks at the end of a line -/

theorem ne_of_isBlank {b c : Char} (hb : isBlank b = true) (hc : isBlank c = false) : b ≠ c := by
  rintro rfl
  rw [hb] at hc
  cases hc

namespace Scanner

/-- A blank character changes nothing. -/
theorem step_of_isBlank (s : Scanner) {b : Char} (hb : isBlank b = true) (rest : List Char) :
    s.step b rest = .next s := by
  have hne : ∀ c, isBlank c = false → b ≠ c := fun c hc => ne_of_isBlank hb hc
  have hopener : isOpener b = false := by
    simp [isOpener, hne '{' rfl, hne '[' rfl, hne '(' rfl]
  have hcloser : isCloser b = false := by
    simp [isCloser, hne '}' rfl, hne ']' rfl, hne ')' rfl]
  simp [step, stepQuoted, stepCode, stepComment, hopener, hcloser, hne '\\' rfl, hne '"' rfl,
    hne '$' rfl, hne '%' rfl, hne '#' rfl, hne '/' rfl, hne '<' rfl, hne '*' rfl]
  split <;> simp

/-- Blanks change nothing for the scanner. -/
theorem run_of_blanks (s : Scanner) {b : List Char} (hb : Blanks b) : s.run b = s := by
  induction b with
  | nil => rfl
  | cons c b ih =>
    rw [run, step_of_isBlank s (hb c (List.mem_cons_self ..))]
    exact ih fun d hd => hb d (List.mem_cons_of_mem _ hd)

end Scanner

/-- Blanks are not taken for the character that a character may belong together with. -/
theorem head?_append_blanks {b : List Char} (hb : Blanks b) {c : Char} (hc : isBlank c = false)
    (rest : List Char) : (rest ++ b).head? = some c ↔ rest.head? = some c := by
  cases rest with
  | cons d rest => rfl
  | nil =>
    cases b with
    | nil => rfl
    | cons d b =>
      have hne : d ≠ c := ne_of_isBlank (hb d (List.mem_cons_self ..)) hc
      simp [hne]

/-- Blanks at the end of a line do not change the marker on it. -/
theorem heredocMarker_append_blanks {b : List Char} (hb : Blanks b) (after : List Char) :
    heredocMarker (after ++ b) = heredocMarker after := by
  have htake : ∀ t : List Char,
      (t ++ b).takeWhile (fun c => isAlphanumeric c || c == '_') =
        t.takeWhile (fun c => isAlphanumeric c || c == '_') := by
    intro t
    induction t with
    | nil =>
      cases b with
      | nil => rfl
      | cons d b =>
        have hd := hb d (List.mem_cons_self ..)
        have hne : d ≠ '_' := ne_of_isBlank hd rfl
        simp [isBlank_alphanumeric hd, hne]
    | cons c t ih => rw [List.cons_append, List.takeWhile_cons, List.takeWhile_cons, ih]
  have hdash : b.dropWhile (· == '-') = b := by
    cases b with
    | nil => rfl
    | cons d b =>
      have hne : d ≠ '-' := ne_of_isBlank (hb d (List.mem_cons_self ..)) rfl
      simp [hne]
  have hdrop : (after ++ b).dropWhile (· == '-') = after.dropWhile (· == '-') ++ b := by
    induction after with
    | nil => simpa using hdash
    | cons c t ih =>
      by_cases hc : c = '-'
      · simpa [hc] using ih
      · simp [hc]
  rw [heredocMarker, heredocMarker, hdrop, htake]

namespace Scanner

/-- What follows after a character does not depend on the blanks at the end of its line. -/
theorem step_append_blanks (s : Scanner) (c : Char) {b : List Char} (hb : Blanks b)
    (rest : List Char) : s.step c (rest ++ b) = s.step c rest := by
  have hhead : ∀ d, isBlank d = false → ((rest ++ b).head? = some d ↔ rest.head? = some d) :=
    fun d hd => head?_append_blanks hb hd rest
  have hmarker : rest.head? = some '<' →
      heredocMarker (rest ++ b).tail = heredocMarker rest.tail := by
    intro hrest
    cases rest with
    | nil => cases hrest
    | cons d rest => exact heredocMarker_append_blanks hb rest
  have hsame : c = '$' ∨ c = '%' → ((rest ++ b).head? = some c ↔ rest.head? = some c) := by
    rintro (rfl | rfl)
    · exact hhead '$' rfl
    · exact hhead '%' rfl
  rw [step, step]
  cases hregion : s.region with
  | code =>
    simp only
    by_cases hquoted : s.inQuoted = true
    · simp only [hquoted, if_true, stepQuoted, hhead '{' rfl]
      by_cases hc : c = '$' ∨ c = '%'
      · simp only [hsame hc]
      · simp only [hc, if_false]
    · simp only [hquoted, Bool.false_eq_true, if_false, stepCode, hhead '/' rfl, hhead '*' rfl,
        hhead '<' rfl]
      by_cases hlt : rest.head? = some '<'
      · simp only [hmarker hlt]
      · simp only [hlt, and_false, if_false]
  | comment => simp only [stepComment, hhead '/' rfl]
  | heredoc m => simp only [stepComment, hhead '/' rfl]

/-- Blanks at the end of a line change nothing. -/
theorem run_append_blanks (s : Scanner) {b : List Char} (hb : Blanks b) (l : List Char) :
    s.run (l ++ b) = s.run l := by
  match l with
  | [] => exact run_of_blanks s hb
  | c :: rest =>
    rw [List.cons_append, run, run, step_append_blanks s c hb]
    cases s.step c rest with
    | next s => exact run_append_blanks s hb rest
    | stop s => rfl
    | skip s =>
      cases rest with
      | cons d rest => exact run_append_blanks s hb rest
      | nil =>
        cases b with
        | nil => rfl
        | cons d b => exact run_of_blanks s fun e he => hb e (List.mem_cons_of_mem _ he)

/-- Blanks at the end of a line do not matter. -/
theorem scan_trimEnd (s : Scanner) (l : List Char) : s.scan (trimEnd l) = s.scan l := by
  rcases exists_trimEnd l with ⟨b, hb, hl⟩
  have hrun : s.run (trimEnd l) = s.run l := by
    rw [← run_append_blanks s hb, ← hl]
  rw [scan, scan, hrun, trim_trimEnd]

end Scanner

/-! ## Lines that were re-indented -/

/-- In a heredoc or a comment a line is kept. -/
theorem continuation_of_verbatim {s : Scanner} (h : s.verbatim = true) (depth : Nat)
    (l : List Char) : continuation depth s l = l := by
  rw [continuation, if_pos h]

/-- A blank line becomes an empty one. -/
theorem continuation_of_blank {s : Scanner} (h : s.verbatim = false) {l : List Char}
    (hl : trim l = []) (depth : Nat) : continuation depth s l = [] := by
  simp [continuation, h, hl]

/-- A line of code is trimmed and indented by the brackets that are open in front of it. -/
theorem continuation_of_code {s : Scanner} (h : s.verbatim = false) {l : List Char}
    (hl : trim l ≠ []) (depth : Nat) :
    continuation depth s l = indent (depth + (s.depth - leadingClosers (trim l))) ++ trim l := by
  simp [continuation, h, hl]

/-- A line after the first is written as it is, as an empty line, or at its depth. -/
theorem continuation_cases (depth : Nat) (s : Scanner) (l : List Char) :
    (s.verbatim = true ∧ continuation depth s l = l) ∨
      (s.verbatim = false ∧ trim l = [] ∧ continuation depth s l = []) ∨
      (s.verbatim = false ∧ trim l ≠ [] ∧
        continuation depth s l =
          indent (depth + (s.depth - leadingClosers (trim l))) ++ trim l) := by
  cases h : s.verbatim with
  | true => exact .inl ⟨rfl, continuation_of_verbatim h depth l⟩
  | false =>
    by_cases hl : trim l = []
    · exact .inr (.inl ⟨rfl, hl, continuation_of_blank h hl depth⟩)
    · exact .inr (.inr ⟨rfl, hl, continuation_of_code h hl depth⟩)

/-- A line is moved, but its text stays. -/
theorem trim_continuation (depth : Nat) (s : Scanner) (l : List Char) :
    trim (continuation depth s l) = trim l := by
  rcases continuation_cases depth s l with ⟨-, hline⟩ | ⟨-, hl, hline⟩ | ⟨-, -, hline⟩
  · rw [hline]
  · rw [hline, hl, trim_nil]
  · have hindent := blanks_replicate (2 * (depth + (s.depth - leadingClosers (trim l))))
    have happend := trim_append hindent Blanks.nil (trim l)
    rw [List.append_nil, trim_trim] at happend
    rw [hline]
    exact happend

/-- A line that was moved is moved as before. -/
theorem continuation_continuation (s : Scanner) (depth depth' : Nat) (l : List Char) :
    continuation depth' s (continuation depth s l) = continuation depth' s l := by
  cases h : s.verbatim with
  | true => rw [continuation_of_verbatim h depth]
  | false =>
    simp only [continuation.eq_1 depth', h, Bool.false_eq_true, if_false, trim_continuation]

/-- The scanner does not see that a line was moved. -/
theorem after_continuation (s : Scanner) (depth : Nat) (l : List Char) :
    s.after (continuation depth s l) = s.after l := by
  cases h : s.verbatim with
  | true => rw [continuation_of_verbatim h]
  | false => simp only [Scanner.after, h, Bool.false_eq_true, if_false, trim_continuation]

/-- Only the last indentation of lines counts. -/
theorem continuations_continuations (depth depth' : Nat) (s : Scanner) (ls : List (List Char)) :
    continuations depth' s (continuations depth s ls) = continuations depth' s ls := by
  induction ls generalizing s with
  | nil => rfl
  | cons l ls ih =>
    rw [continuations, continuations, continuation_continuation, after_continuation, ih,
      continuations]

/-- Only the last indentation of a value's lines counts. -/
theorem reindentLines_reindentLines (depth depth' : Nat) (ls : List (List Char)) :
    reindentLines depth' (reindentLines depth ls) = reindentLines depth' ls := by
  cases ls with
  | nil => rfl
  | cons l ls =>
    rw [reindentLines, reindentLines, trimEnd_trimEnd, Scanner.scan_trimEnd,
      continuations_continuations, reindentLines]

/-! ## The lines of a re-indented value -/

/-- Trimming only takes characters away. -/
theorem mem_of_mem_trim {c : Char} {t : List Char} (h : c ∈ trim t) : c ∈ t := by
  rcases exists_trim t with ⟨a, b, -, -, ht⟩
  rw [ht]
  exact List.mem_append_right a (List.mem_append_left b h)

theorem mem_of_mem_trimEnd {c : Char} {t : List Char} (h : c ∈ trimEnd t) : c ∈ t := by
  rcases exists_trimEnd t with ⟨b, -, ht⟩
  rw [ht]
  exact List.mem_append_left b h

/-- A line is still one when it has been indented. -/
theorem not_mem_continuation (depth : Nat) (s : Scanner) {l : List Char} (h : '\n' ∉ l) :
    '\n' ∉ continuation depth s l := by
  rcases continuation_cases depth s l with ⟨-, hline⟩ | ⟨-, -, hline⟩ | ⟨-, -, hline⟩
  · rw [hline]
    exact h
  · rw [hline]
    exact List.not_mem_nil
  · have htext : '\n' ∉ trim l := fun hmem => h (mem_of_mem_trim hmem)
    simp [hline, indent, htext]

/-- Lines are still lines when they have been indented. -/
theorem not_mem_continuations (depth : Nat) (s : Scanner) {ls : List (List Char)}
    (h : ∀ l ∈ ls, '\n' ∉ l) : ∀ l ∈ continuations depth s ls, '\n' ∉ l := by
  induction ls generalizing s with
  | nil =>
    intro l hl
    cases hl
  | cons m ls ih =>
    intro l hl
    rcases List.mem_cons.1 hl with rfl | hl
    · exact not_mem_continuation depth s (h m (List.mem_cons_self ..))
    · exact ih _ (fun l' hl' => h l' (List.mem_cons_of_mem _ hl')) l hl

/-- The lines of a value are still lines when they have been indented. -/
theorem not_mem_reindentLines (depth : Nat) {ls : List (List Char)} (h : ∀ l ∈ ls, '\n' ∉ l) :
    ∀ l ∈ reindentLines depth ls, '\n' ∉ l := by
  cases ls with
  | nil => exact h
  | cons m ls =>
    intro l hl
    rcases List.mem_cons.1 hl with rfl | hl
    · exact fun hmem => h m (List.mem_cons_self ..) (mem_of_mem_trimEnd hmem)
    · exact not_mem_continuations depth _ (fun l' hl' => h l' (List.mem_cons_of_mem _ hl')) l hl

/-- The lines of a re-indented value. -/
theorem lines_reindent (depth : Nat) (raw : List Char) :
    lines (reindent depth raw) = reindentLines depth (lines (trim raw)) := by
  refine lines_unlines ?_ (not_mem_reindentLines depth fun l hl => not_mem_of_mem_lines hl)
  intro hnil
  have hlength := length_reindentLines depth (lines (trim raw))
  rw [hnil, List.length_nil] at hlength
  exact lines_ne_nil _ (List.length_eq_zero_iff.1 hlength.symm)

/-! ## The ends of a re-indented value -/

/-- A line that ends visibly does so when it has been indented, and is not empty. -/
theorem continuation_endsVisible (depth : Nat) (s : Scanner) {l : List Char} (h : EndsVisible l)
    (hne : l ≠ []) : EndsVisible (continuation depth s l) ∧ continuation depth s l ≠ [] := by
  rcases continuation_cases depth s l with ⟨-, hline⟩ | ⟨-, hl, -⟩ | ⟨-, hl, hline⟩
  · rw [hline]
    exact ⟨h, hne⟩
  · exact absurd hl (h.trim_ne_nil hne)
  · rw [hline]
    exact ⟨(trimmed_trim l).ends.append hl _, List.append_ne_nil_of_right_ne_nil _ hl⟩

/-- Lines that end visibly do so when they have been indented, and are not empty. -/
theorem endsVisible_continuations (depth : Nat) (s : Scanner) {ls : List (List Char)}
    (h : EndsVisible (unlines ls)) (hne : unlines ls ≠ []) :
    EndsVisible (unlines (continuations depth s ls)) ∧
      unlines (continuations depth s ls) ≠ [] := by
  induction ls generalizing s with
  | nil => exact absurd rfl hne
  | cons l ls ih =>
    cases ls with
    | nil => exact continuation_endsVisible depth s h hne
    | cons m ls =>
      rw [unlines_cons_cons] at h
      rcases h.of_newline with ⟨hends, hnonempty⟩
      rcases ih (s.after l) hends hnonempty with ⟨hends', hnonempty'⟩
      rw [continuations] at hends' hnonempty'
      rw [continuations, continuations, unlines_cons_cons, List.append_cons]
      exact ⟨hends'.append hnonempty' _, List.append_ne_nil_of_right_ne_nil _ hnonempty'⟩

/-- The first line loses the blanks at its end, so a trimmed value is trimmed again. -/
theorem trimmed_unlines_reindentLines (depth : Nat) {t : List Char} (ht : Trimmed t) :
    Trimmed (unlines (reindentLines depth (lines t))) := by
  have hunlines := unlines_lines t
  cases hl : lines t with
  | nil => exact absurd hl (lines_ne_nil t)
  | cons l ls =>
    rw [hl] at hunlines
    have hbegins : BeginsVisible (trimEnd l) := (ht.begins.of_lines hl).trimEnd
    cases ls with
    | nil => exact ⟨hbegins, endsVisible_trimEnd l⟩
    | cons m ls =>
      rw [unlines_cons_cons] at hunlines
      rcases EndsVisible.of_newline (l := l) (hunlines ▸ ht.ends) with ⟨hends, hne⟩
      obtain ⟨hends', hne'⟩ :=
        endsVisible_continuations depth (Scanner.initial.scan l) hends hne
      rw [continuations] at hends' hne'
      rw [reindentLines, continuations, unlines_cons_cons]
      constructor
      · have hnonempty : l ≠ [] := BeginsVisible.of_newline (t := unlines (m :: ls))
          (hunlines ▸ ht.begins)
        have hvisible : trimEnd l ≠ [] := (ht.begins.of_lines hl).trimEnd_ne_nil hnonempty
        intro c hc
        rcases List.exists_cons_of_ne_nil hvisible with ⟨d, u, hdu⟩
        apply hbegins c
        rw [hdu] at hc ⊢
        exact hc
      · rw [List.append_cons]
        exact hends'.append hne' _

/-- A re-indented value has no blanks at its ends. -/
theorem trimmed_reindent (depth : Nat) (raw : List Char) : Trimmed (reindent depth raw) :=
  trimmed_unlines_reindentLines depth (trimmed_trim raw)

/-! ## Re-indenting again -/

/-- Only the last depth counts. -/
theorem reindent_reindent (depth depth' : Nat) (raw : List Char) :
    reindent depth' (reindent depth raw) = reindent depth' raw := by
  rw [reindent, (trimmed_reindent depth raw).trim_eq, lines_reindent, reindentLines_reindentLines,
    reindent]

/-- The blanks around a value do not matter. -/
theorem reindent_append {a b : List Char} (ha : Blanks a) (hb : Blanks b) (depth : Nat)
    (raw : List Char) : reindent depth (a ++ (raw ++ b)) = reindent depth raw := by
  rw [reindent, trim_append ha hb, reindent]

/-- A space in front of a value makes no difference. -/
theorem reindent_space (depth : Nat) (raw : List Char) :
    reindent depth (' ' :: raw) = reindent depth raw := by
  have hspace := reindent_append (blanks_replicate 1) Blanks.nil depth raw
  rw [List.append_nil] at hspace
  exact hspace

/-- Re-indenting keeps a value on one line, or on several. -/
theorem mem_newline_reindent (depth : Nat) (raw : List Char) :
    '\n' ∈ reindent depth raw ↔ '\n' ∈ trim raw := by
  rw [mem_newline_iff, mem_newline_iff, lines_reindent, length_reindentLines]

/-- A value on one line is just trimmed. -/
theorem reindent_of_single {raw : List Char} (h : '\n' ∉ trim raw) (depth : Nat) :
    reindent depth raw = trim raw := by
  rw [reindent, lines_of_not_mem h, reindentLines, continuations, unlines,
    (trimmed_trim raw).ends.trimEnd_eq]

/-! ## Where the scanner stands -/

/-- The scanner in front of each of the lines that follow. -/
def Scanner.inFront (s : Scanner) : List (List Char) → List Scanner
  | [] => []
  | l :: ls => s :: (s.after l).inFront ls

/-- The scanner in front of each line of a value but the first. -/
def lineStates (raw : List Char) : List Scanner :=
  match lines (trim raw) with
  | [] => []
  | first :: rest => (Scanner.initial.scan first).inFront rest

/-- There is a scanner in front of each line. -/
theorem length_inFront (s : Scanner) (ls : List (List Char)) :
    (s.inFront ls).length = ls.length := by
  induction ls generalizing s with
  | nil => rfl
  | cons l ls ih => simp [Scanner.inFront, ih]

/-- Indenting lines does not change what the scanner has read in front of them. -/
theorem Scanner.inFront_continuations (depth : Nat) (s : Scanner) (ls : List (List Char)) :
    s.inFront (continuations depth s ls) = s.inFront ls := by
  induction ls generalizing s with
  | nil => rfl
  | cons l ls ih => rw [continuations, inFront, inFront, after_continuation, ih]

/-- Over a re-indented value the scanner stands in front of every line as it did over the value. -/
theorem lineStates_reindent (depth : Nat) (raw : List Char) :
    lineStates (reindent depth raw) = lineStates raw := by
  rw [lineStates, lineStates, (trimmed_reindent depth raw).trim_eq, lines_reindent]
  cases lines (trim raw) with
  | nil => rfl
  | cons l ls =>
    simp only [reindentLines, Scanner.scan_trimEnd, Scanner.inFront_continuations]

/-- A value that was re-indented at one depth is re-indented at another as the value itself, and
stays as it is at its own; the scanner goes through both alike, so values that look the same at
one depth look the same at all. -/
theorem reindent_forgets (depth depth' : Nat) (raw : List Char) :
    reindent depth' (reindent depth raw) = reindent depth' raw ∧
      reindent depth (reindent depth raw) = reindent depth raw ∧
      lineStates (reindent depth raw) = lineStates raw ∧
      ∀ other, reindent depth other = reindent depth raw ↔
        reindent depth' other = reindent depth' raw := by
  have hsame : ∀ d d' other, reindent d other = reindent d raw →
      reindent d' other = reindent d' raw := by
    intro d d' other h
    calc reindent d' other = reindent d' (reindent d other) := (reindent_reindent d d' other).symm
      _ = reindent d' (reindent d raw) := by rw [h]
      _ = reindent d' raw := reindent_reindent d d' raw
  exact ⟨reindent_reindent depth depth' raw, reindent_reindent depth depth raw,
    lineStates_reindent depth raw,
    fun other => ⟨hsame depth depth' other, hsame depth' depth other⟩⟩

end HclQuery.Layout
