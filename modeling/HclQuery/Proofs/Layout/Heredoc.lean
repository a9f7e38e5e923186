import HclQuery.Proofs.Layout.Code

/-!
# Re-indenting around a heredoc

The lines of a heredoc are part of its value, so a value that contains one has to be re-indented
around it: the lines of the body and the closing line stay as they are, and the lines after them
are moved again.

A heredoc is kept that way if its marker has no dash.  One with a dash in its marker is left at the
first line that is what the marker begins with, be it in the body or after the heredoc, and is not
left at all if there is no such line.

Main definitions:

- {lit}`Heredoc.Kept`: what re-indenting is to do with the lines of a heredoc and after it.

Main results:

- Theorem {lit}`Heredoc.kept_iff`: the heredocs that the scanner has treated that way.
- Theorem {lit}`lines_reindent_heredoc`: a value is re-indented up to its heredoc, and from there
  on as the scanner takes the heredoc.
- Theorem {lit}`heredoc_verbatim_iff`: the heredocs of a value that are kept as they are.
-/

namespace HclQuery.Layout

open Text Scanner

/-! ## The lines around a heredoc -/

/-- Blanks in front change nothing for the scanner. -/
theorem run_blanks_append {a : List Char} (ha : Blanks a) (s : Scanner) (t : List Char) :
    s.run (a ++ t) = s.run t := by
  induction a with
  | nil => rfl
  | cons c a ih =>
    rw [List.cons_append, run, step_of_isBlank s (ha c (List.mem_cons_self ..))]
    exact ih fun d hd => ha d (List.mem_cons_of_mem c hd)

/-- The blanks around a line do not matter. -/
theorem after_eq_scan (s : Scanner) (l : List Char) : s.after l = s.scan l := by
  rw [Scanner.after]
  split
  · rfl
  · next hverbatim =>
    have hcode : s.region = .code := by
      rw [verbatim] at hverbatim
      split at hverbatim
      · assumption
      · exact absurd rfl hverbatim
    rcases exists_trimStart l with ⟨a, ha, hl⟩
    have hstart : s.scan (trimStart l) = s.scan l := by
      rw [scan_of_code hcode, scan_of_code hcode, ← run_blanks_append ha, ← hl]
    rw [trim, scan_trimEnd, hstart]

/-- Lines after others are indented by what the scanner has read of those. -/
theorem continuations_append (depth : Nat) (s : Scanner) (a b : List (List Char)) :
    continuations depth s (a ++ b) =
      continuations depth s a ++ continuations depth (a.foldl scan s) b := by
  induction a generalizing s with
  | nil => rfl
  | cons l a ih =>
    rw [List.cons_append, continuations, continuations, ih, after_eq_scan, List.foldl_cons,
      List.cons_append]

/-- Re-indenting goes on, after some lines, from where the scanner is. -/
theorem reindentLines_append (depth : Nat) (t : List Char) (b : List (List Char)) :
    reindentLines depth (lines t ++ b) =
      reindentLines depth (lines t) ++ continuations depth (initial.through t) b := by
  rcases exists_lines t with ⟨l, ls, hl⟩
  rw [through_of_lines hl, hl, List.cons_append, reindentLines, reindentLines, List.cons_append,
    continuations_append, Outside.scan_eq (.of_code rfl)]

/-- Lines that are not the marker are kept. -/
theorem continuations_body {m : List Char} {body : List (List Char)}
    (h : ∀ l ∈ body, trim l ≠ m) (depth : Nat) (σ : List Frame) :
    continuations depth ⟨σ, .heredoc m⟩ body = body := by
  induction body with
  | nil => rfl
  | cons l body ih =>
    have hl : (Scanner.mk σ (.heredoc m)).scan l = ⟨σ, .heredoc m⟩ :=
      if_neg (h l (List.mem_cons_self ..))
    rw [continuations, after_eq_scan, hl, ih fun l' hl' => h l' (List.mem_cons_of_mem l hl'),
      continuation_of_verbatim rfl]

/-- The line of the marker is kept, and code follows it. -/
theorem continuations_closing {m l : List Char} (h : trim l = m) (depth : Nat) (σ : List Frame)
    (ls : List (List Char)) :
    continuations depth ⟨σ, .heredoc m⟩ (l :: ls) = l :: continuations depth ⟨σ, .code⟩ ls := by
  rw [continuations, continuation_of_verbatim rfl, after_eq_scan, scan_closing h]

/-- The first of the lines with some property. -/
theorem exists_first {P : List Char → Prop} [DecidablePred P] {ls : List (List Char)}
    (h : ∃ l ∈ ls, P l) : ∃ a l b, ls = a ++ l :: b ∧ (∀ l' ∈ a, ¬P l') ∧ P l := by
  rcases hfind : ls.find? (fun l => decide (P l)) with _ | l
  · rcases h with ⟨l, hl, hP⟩
    exact absurd (decide_eq_true hP) (List.find?_eq_none.1 hfind l hl)
  · rcases List.find?_eq_some_iff_append.1 hfind with ⟨hP, a, b, hls, ha⟩
    exact ⟨a, l, b, hls, fun l' hl' => by simpa using ha l' hl', of_decide_eq_true hP⟩

/-- A line with something on it is moved along with the depth. -/
theorem continuation_ne {s : Scanner} (hs : s.region = .code) {l : List Char} (hl : trim l ≠ []) :
    continuation 0 s l ≠ continuation 1 s l := by
  have hverbatim : s.verbatim = false := by rw [verbatim, hs]
  intro heq
  have hlength := congrArg List.length heq
  simp only [continuation_of_code hverbatim hl, indent, List.length_append,
    List.length_replicate] at hlength
  omega

/-- Lines of which one is not blank are indented differently at different depths. -/
theorem continuations_ne {s : Scanner} (hs : s.region = .code) {ls : List (List Char)}
    (h : ∃ l ∈ ls, trim l ≠ []) : continuations 0 s ls ≠ continuations 1 s ls := by
  intro heq
  induction ls with
  | nil =>
    rcases h with ⟨l, hl, -⟩
    cases hl
  | cons l ls ih =>
    rw [continuations, continuations] at heq
    rcases List.cons.inj heq with ⟨hhead, htail⟩
    by_cases hl : trim l = []
    · have hafter : s.after l = s := by
        have hverbatim : s.verbatim = false := by rw [verbatim, hs]
        rw [Scanner.after, if_neg (by simp [hverbatim]), hl, scan_of_code hs, run_nil]
      rw [hafter] at htail
      rcases h with ⟨l', hl', hne⟩
      rcases List.mem_cons.1 hl' with rfl | hl'
      · exact hne hl
      · exact ih ⟨l', hl', hne⟩ htail
    · exact continuation_ne hs hl hhead

/-- So lines of code are not kept at every depth, unless they are blank. -/
theorem forall_blank_of_continuations {s : Scanner} (hs : s.region = .code)
    {ls ls' more : List (List Char)} {after : Nat → List (List Char)}
    (hlength : ls.length = ls'.length)
    (h : ∀ depth, continuations depth s (ls ++ more) = ls' ++ after depth) :
    ∀ l ∈ ls, trim l = [] := by
  have hfixed : ∀ depth, continuations depth s ls = ls' := by
    intro depth
    have heq := h depth
    rw [continuations_append] at heq
    exact (List.append_inj heq (by rw [length_continuations, hlength])).1
  intro l hl
  by_cases hne : trim l = []
  · exact hne
  · exact absurd ((hfixed 0).trans (hfixed 1).symm) (continuations_ne hs ⟨l, hl, hne⟩)

/-! ## The lines of a heredoc -/

namespace Heredoc

/-- The scanner after the first line of a heredoc. -/
def inside (d : Heredoc) (n : Nat) : Scanner :=
  ⟨List.replicate n .bracket ++ [], .heredoc d.front⟩

/-- The lines of a heredoc are kept at every depth, and the lines after it are re-indented in the
brackets that were open in front of it. -/
def Kept (d : Heredoc) (n : Nat) (after : List (List Char)) : Prop :=
  ∀ depth, continuations depth (d.inside n) (d.rest ++ after) =
    d.rest ++ continuations depth (inBrackets n []) after

/-- A heredoc is kept if the scanner takes its whole marker. -/
theorem kept_of_marker {d : Heredoc} (hd : '-' ∉ d.marker) (n : Nat) (after : List (List Char)) :
    d.Kept n after := by
  intro depth
  rw [inside, d.front_eq_iff.2 hd, rest, List.append_assoc, continuations_append,
    continuations_body d.body_open, foldl_scan_body d.body_open, List.singleton_append,
    continuations_closing d.closes, List.append_assoc]
  rfl

/-- Otherwise the closing line does not close the heredoc. -/
theorem rest_open {d : Heredoc} (hd : '-' ∈ d.marker)
    (hbody : ∀ l ∈ d.body, trim l ≠ d.front) : ∀ l ∈ d.rest, trim l ≠ d.front := by
  intro l hl
  rcases List.mem_append.1 hl with hl | hl
  · exact hbody l hl
  · rw [List.mem_singleton.1 hl, d.closes]
    exact fun heq => d.front_eq_iff.1 heq.symm hd

/-- A heredoc is left at the first line that is what its marker begins with. -/
theorem not_kept_of_front {d : Heredoc} (h : ∃ l ∈ d.body, trim l = d.front)
    (n : Nat) (after : List (List Char)) :
    ¬d.Kept n after := by
  rcases exists_first h with ⟨a, l, b, hbody, ha, hl⟩
  have hrest : d.rest = a ++ (l :: (b ++ [d.closing])) := by
    rw [rest, hbody, List.append_assoc, List.cons_append]
  intro heq
  have hcode : ∀ depth, continuations depth (inBrackets n []) ((b ++ [d.closing]) ++ after) =
      (b ++ [d.closing]) ++ continuations depth (inBrackets n []) after := by
    intro depth
    have hdepth := heq depth
    rw [hrest, inside, List.append_assoc, List.append_assoc, continuations_append,
      continuations_body ha, foldl_scan_body ha, List.append_cancel_left_eq, List.cons_append,
      continuations_closing hl] at hdepth
    exact (List.cons.inj hdepth).2
  have hblank := forall_blank_of_continuations rfl rfl hcode d.closing (by simp)
  rw [d.closes] at hblank
  exact d.marker_ne_nil hblank

/-- A heredoc that is not left keeps the lines after it. -/
theorem not_kept_of_after {d : Heredoc} (hd : '-' ∈ d.marker)
    (hbody : ∀ l ∈ d.body, trim l ≠ d.front) (n : Nat) {after : List (List Char)}
    (hafter : ∃ l ∈ after, trim l ≠ []) :
    ¬d.Kept n after := by
  -- Up to its first line with something on it, the text after the heredoc is still in it.
  rcases exists_first hafter with ⟨a, l, b, rfl, ha, hl⟩
  have ha' : ∀ l' ∈ a, trim l' ≠ d.front := by
    intro l' hl' heq
    exact ha l' hl' fun hnil => d.front_ne_nil (heq.symm.trans hnil)
  intro heq
  have hcode : ∀ depth, continuations depth (inBrackets n []) ((a ++ [l]) ++ b) =
      (a ++ [l]) ++ continuations depth ((d.inside n).scan l) b := by
    intro depth
    have hdepth := heq depth
    have hopen := rest_open hd hbody
    rw [inside, continuations_append, continuations_body hopen, foldl_scan_body hopen,
      List.append_cancel_left_eq, continuations_append, continuations_body ha',
      foldl_scan_body ha', continuations, continuation_of_verbatim rfl, after_eq_scan] at hdepth
    rw [List.append_assoc, List.singleton_append, ← hdepth, List.append_assoc,
      List.singleton_append]
    rfl
  exact hl (forall_blank_of_continuations rfl rfl hcode l (by simp))

/-- A heredoc is kept when no dash is in its marker, or when nothing follows it and no line closes
it early. -/
theorem kept_iff (d : Heredoc) (n : Nat) {after : List (List Char)}
    (hafter : after ≠ [] → ∃ l ∈ after, trim l ≠ []) :
    d.Kept n after ↔ '-' ∉ d.marker ∨ after = [] ∧ ∀ l ∈ d.body, trim l ≠ d.front := by
  constructor
  · intro h
    by_cases hd : '-' ∈ d.marker
    · refine .inr ?_
      by_cases hbody : ∃ l ∈ d.body, trim l = d.front
      · exact absurd h (d.not_kept_of_front hbody n after)
      · have hopen : ∀ l ∈ d.body, trim l ≠ d.front := fun l hl heq => hbody ⟨l, hl, heq⟩
        by_cases hne : after = []
        · exact ⟨hne, hopen⟩
        · exact absurd h (not_kept_of_after hd hopen n (hafter hne))
    · exact .inl hd
  · rintro (hd | ⟨rfl, hbody⟩)
    · exact kept_of_marker hd n after
    · by_cases hd : '-' ∈ d.marker
      · intro depth
        simp only [inside, List.append_nil, continuations_body (rest_open hd hbody), continuations]
      · exact kept_of_marker hd n []

end Heredoc

/-- A text that ends in a visible character has one on its last line. -/
theorem exists_visible_line {t : List Char} {ls : List (List Char)}
    (h : EndsVisible (t ++ '\n' :: unlines ls)) : ∃ l ∈ ls, trim l ≠ [] := by
  induction ls generalizing t with
  | nil => exact absurd rfl h.of_newline.2
  | cons l ls ih =>
    cases ls with
    | nil => exact ⟨l, List.mem_cons_self .., h.of_newline.1.trim_ne_nil h.of_newline.2⟩
    | cons m ls =>
      rcases ih h.of_newline.1 with ⟨l', hl', hne⟩
      exact ⟨l', List.mem_cons_of_mem l hl', hne⟩

/-! ## Heredocs in a value -/

/-- The text of a heredoc is read up to the heredoc's first line. -/
theorem Scanner.through_front {p : List Char} {d : Heredoc} {n : Nat}
    (hcode : Code 0 (p ++ d.opener) n d.opener) :
    initial.through (p ++ d.opener) = d.inside n := by
  have hhead : ([] : List Frame).head? ≠ some .quoted := by simp
  calc initial.through (p ++ d.opener)
      = (inBrackets n []).through d.opener := hcode.through_eq hhead
    _ = (inBrackets n []).run d.opener := through_of_lines (lines_of_not_mem d.opener_line) _
    _ = d.inside n := run_opener hhead n d

section

variable {raw p : List Char} {d : Heredoc} {after : List (List Char)} {n : Nat}

/-- The lines of a value with a heredoc. -/
theorem lines_trim_heredoc
    (hraw : trim raw = p ++ unlines (d.opener :: (d.rest ++ after)))
    (hafter : ∀ l ∈ after, '\n' ∉ l) :
    lines (trim raw) = lines (p ++ d.opener) ++ (d.rest ++ after) := by
  have hne : d.rest ++ after ≠ [] := List.append_ne_nil_of_left_ne_nil d.rest_ne_nil after
  have hlines : ∀ l ∈ d.rest ++ after, '\n' ∉ l := by
    intro l hl
    rcases List.mem_append.1 hl with hl | hl
    · exact d.rest_lines l hl
    · exact hafter l hl
  rw [hraw, ← List.singleton_append, unlines_append (List.cons_ne_nil _ _) hne,
    ← List.append_assoc, lines_append, lines_unlines hne hlines]
  rfl

/-- A value is re-indented up to its heredoc, and goes on with the lines after the first. -/
theorem lines_reindent_heredoc
    (hraw : trim raw = p ++ unlines (d.opener :: (d.rest ++ after)))
    (hafter : ∀ l ∈ after, '\n' ∉ l) (hcode : Code 0 (p ++ d.opener) n d.opener) (depth : Nat) :
    lines (reindent depth raw) =
      reindentLines depth (lines (p ++ d.opener)) ++
        continuations depth (d.inside n) (d.rest ++ after) := by
  rw [lines_reindent, lines_trim_heredoc hraw hafter, reindentLines_append, through_front hcode]

/-- A heredoc's lines are kept, and the lines after it re-indented, exactly if its marker has no
dash, or if it is last in the value and no line of its body is what the marker begins with. -/
theorem heredoc_verbatim_iff
    (hraw : trim raw = p ++ unlines (d.opener :: (d.rest ++ after)))
    (hafter : ∀ l ∈ after, '\n' ∉ l) (hcode : Code 0 (p ++ d.opener) n d.opener) :
    (∀ depth, lines (reindent depth raw) =
      reindentLines depth (lines (p ++ d.opener)) ++
        (d.rest ++ continuations depth (inBrackets n []) after)) ↔
      '-' ∉ d.marker ∨ after = [] ∧ ∀ l ∈ d.body, trim l ≠ d.front := by
  have hafter_visible : after ≠ [] → ∃ l ∈ after, trim l ≠ [] := by
    intro hne
    have hends := (trimmed_trim raw).ends
    rw [hraw, ← List.cons_append, unlines_append (List.cons_ne_nil _ _) hne,
      ← List.append_assoc] at hends
    exact exists_visible_line hends
  simp only [lines_reindent_heredoc hraw hafter hcode, List.append_cancel_left_eq]
  exact d.kept_iff n hafter_visible

end

/-- A heredoc of one line, the line moved to the right. -/
def movedLine : Heredoc where
  dashed := false
  marker := ['E', 'O', 'F']
  tail := []
  body := [[' ', ' ', ' ', ' ', 'x']]
  closing := ['E', 'O', 'F']
  marker_chars := List.all_eq_true.1 (by decide)
  marker_ne_nil := by decide
  marker_head := by decide
  tail_line := by decide
  tail_head := nofun
  body_lines := by decide
  body_open := by decide
  closing_line := by decide
  closes := by decide

/-- The front of a call. -/
def callFront : List Char :=
  ['f', '(', '"', '<', '<', '"', ',', ' ']

/-- The second argument of a call is kept, and the bracket after it closes the call. -/
theorem heredoc_verbatim_iff_call :
    (trim (callFront ++ unlines (movedLine.opener :: (movedLine.rest ++ [[' ', ')']]))) =
        callFront ++ unlines (movedLine.opener :: (movedLine.rest ++ [[' ', ')']])) ∧
      (∀ l ∈ [[' ', ')']], '\n' ∉ l) ∧
      Code 0 (callFront ++ movedLine.opener) 1 movedLine.opener) ∧
    ∀ depth, lines (reindent depth
        (callFront ++ unlines (movedLine.opener :: (movedLine.rest ++ [[' ', ')']])))) =
      reindentLines depth (lines (callFront ++ movedLine.opener)) ++
        (movedLine.rest ++ continuations depth (inBrackets 1 []) [[' ', ')']]) := by
  have hraw : trim (callFront ++ unlines (movedLine.opener :: (movedLine.rest ++ [[' ', ')']]))) =
      callFront ++ unlines (movedLine.opener :: (movedLine.rest ++ [[' ', ')']])) := by
    decide
  have hafter : ∀ l ∈ [[' ', ')']], '\n' ∉ l := by decide
  have hstring : Quoted ['<', '<', '"', ',', ' ', '<', '<', 'E', 'O', 'F']
      [',', ' ', '<', '<', 'E', 'O', 'F'] :=
    .plain rfl (.plain rfl .close)
  have hcode : Code 0 (callFront ++ movedLine.opener) 1 movedLine.opener :=
    .plain rfl (.opener rfl (.string hstring (.plain rfl (.plain rfl .done))))
  exact ⟨⟨hraw, hafter, hcode⟩,
    (heredoc_verbatim_iff hraw hafter hcode).2 (.inl (by decide))⟩

/-- A heredoc with a dash in its marker, and a line that is the marker up to there. -/
def dashedMarker : Heredoc where
  dashed := false
  marker := ['A', '-', 'B']
  tail := []
  body := [['A'], [' ', ' ', ' ', ' ', ' ', ' ', 't', 'e', 'x', 't']]
  closing := ['A', '-', 'B']
  marker_chars := List.all_eq_true.1 (by decide)
  marker_ne_nil := by decide
  marker_head := by decide
  tail_line := by decide
  tail_head := nofun
  body_lines := by decide
  body_open := by decide
  closing_line := by decide
  closes := by decide

/-- Not every heredoc is kept. -/
theorem not_heredoc_verbatim :
    ¬∀ (raw p : List Char) (d : Heredoc) (after : List (List Char)) (n : Nat),
      trim raw = p ++ unlines (d.opener :: (d.rest ++ after)) → (∀ l ∈ after, '\n' ∉ l) →
      Code 0 (p ++ d.opener) n d.opener →
      ∀ depth, lines (reindent depth raw) =
        reindentLines depth (lines (p ++ d.opener)) ++
          (d.rest ++ continuations depth (inBrackets n []) after) := by
  intro h
  have hkept := h (unlines (dashedMarker.opener :: dashedMarker.rest)) [] dashedMarker [] 0
    (by decide) nofun .done 1
  revert hkept
  decide

end HclQuery.Layout
