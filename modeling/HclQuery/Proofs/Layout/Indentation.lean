import HclQuery.Proofs.Configuration
import HclQuery.Proofs.Grammar.Expressions
import HclQuery.Proofs.Layout.Code
import HclQuery.Proofs.Layout.Heredoc
import Mathlib.Tactic.SplitIfs

/-!
# How far a line is indented

A line that begins with closing characters is indented less, by one level for each of them.  The
scanner is more careful when it comes to read them: a brace may end a template, and in a string they
are text.  The two agree as long as the closing characters close brackets, that is, if there are no
more of them than brackets inside the innermost string, or no bracket is open outside of it.

Main definitions:

- {lit}`Nested`: a template is always inside a string.
- {lit}`Scanner.innermost`: the number of brackets that are open inside the innermost string.
- {lit}`Scanner.afterClosers`: the scanner after the closing characters that a line begins with.

Main results:

- Theorem {lit}`nested_lineStates`: the frames are nested in front of every line.
- Theorem {lit}`depth_afterClosers`: closing characters close the brackets inside the innermost
  string, and no others.
- Theorem {lit}`lines_reindent_eq_zipWith`: each line is written from where the scanner stands in
  front of it.
- Theorem {lit}`reindent_level_iff`: which lines are indented by the brackets that stay open.
-/

namespace HclQuery.Layout

open Text

/-! ## Nested frames -/

/-- Frames, innermost first, of which each template is inside a string. -/
inductive Nested : List Frame → Prop where
  | nil : Nested []
  | bracket {st : List Frame} (h : Nested st) : Nested (.bracket :: st)
  | quoted {st : List Frame} (h : Nested st) : Nested (.quoted :: st)
  | template {st : List Frame} (h : Nested st) : Nested (.template :: .quoted :: st)

/-- Without the innermost frame, templates are still inside strings. -/
theorem Nested.tail {st : List Frame} (h : Nested st) : Nested st.tail := by
  cases h with
  | nil => exact .nil
  | bracket h => exact h
  | quoted h => exact h
  | template h => exact .quoted h

/-- The scanner that a move leads to. -/
def Move.scanner : Move → Scanner
  | .next s => s
  | .skip s => s
  | .stop s => s

/-- Inside a string, a move keeps templates inside strings. -/
theorem nested_stepQuoted {s : Scanner} (h : Nested s.stack) (hquoted : s.inQuoted = true)
    (c : Char) (rest : List Char) : Nested (s.stepQuoted c rest).scanner.stack := by
  have htemplate : Nested (s.push .template).stack := by
    rcases s with ⟨stack, region⟩
    cases stack with
    | nil => simp [Scanner.inQuoted] at hquoted
    | cons f st =>
      obtain rfl : f = .quoted := by simpa [Scanner.inQuoted] using hquoted
      exact .template h.tail
  rw [Scanner.stepQuoted]
  split_ifs
  · exact h
  · exact h.tail
  · exact h
  · exact htemplate
  · exact h
  · exact h

/-- In code, a move keeps templates inside strings. -/
theorem nested_stepCode {s : Scanner} (h : Nested s.stack) (c : Char) (rest : List Char) :
    Nested (s.stepCode c rest).scanner.stack := by
  simp only [Scanner.stepCode]
  split_ifs
  · exact .quoted h
  · exact .bracket h
  · exact h.tail
  all_goals exact h

/-- Every move keeps templates inside strings. -/
theorem nested_step {s : Scanner} (h : Nested s.stack) (c : Char) (rest : List Char) :
    Nested (s.step c rest).scanner.stack := by
  have hcomment : Nested (s.stepComment c rest).scanner.stack := by
    rw [Scanner.stepComment]
    split_ifs <;> exact h
  rw [Scanner.step]
  cases s.region with
  | code =>
    by_cases hquoted : s.inQuoted = true
    · simpa [hquoted] using nested_stepQuoted h hquoted c rest
    · simpa [hquoted] using nested_stepCode h c rest
  | comment => exact hcomment
  | heredoc marker => exact hcomment

/-- A run keeps templates inside strings. -/
theorem nested_run {s : Scanner} (h : Nested s.stack) (l : List Char) : Nested (s.run l).stack := by
  fun_induction Scanner.run s l with
  | case1 s => exact h
  | case2 s c rest s' hstep ih =>
    have hnext := nested_step h c rest
    rw [hstep] at hnext
    exact ih hnext
  | case3 s c s' hstep =>
    have hnext := nested_step h c []
    rw [hstep] at hnext
    exact hnext
  | case4 s c s' d rest hstep ih =>
    have hnext := nested_step h c (d :: rest)
    rw [hstep] at hnext
    exact ih hnext
  | case5 s c rest s' hstep =>
    have hnext := nested_step h c rest
    rw [hstep] at hnext
    exact hnext

/-- Reading a line keeps templates inside strings. -/
theorem nested_scan {s : Scanner} (h : Nested s.stack) (l : List Char) :
    Nested (s.scan l).stack := by
  rw [Scanner.scan]
  split
  · split_ifs <;> exact h
  · exact nested_run h l

/-- In front of each line, templates are inside strings. -/
theorem nested_inFront {s : Scanner} (h : Nested s.stack) (ls : List (List Char)) :
    ∀ u ∈ s.inFront ls, Nested u.stack := by
  induction ls generalizing s with
  | nil => simp [Scanner.inFront]
  | cons l ls ih =>
    have hafter : Nested (s.after l).stack := by
      rw [after_eq_scan]
      exact nested_scan h l
    intro u hu
    rcases List.mem_cons.1 hu with rfl | hu
    · exact h
    · exact ih hafter u hu

/-- The frames are nested in front of every line of a value. -/
theorem nested_lineStates (raw : List Char) : ∀ s ∈ lineStates raw, Nested s.stack := by
  rw [lineStates]
  cases lines (trim raw) with
  | nil => simp
  | cons first rest => exact nested_inFront (nested_scan .nil first) rest

/-! ## Closing characters -/

/-- The frames that are left after a number of closing characters: they close brackets and
templates, and are text from the innermost string on. -/
def closed : Nat → List Frame → List Frame
  | n + 1, .bracket :: st => closed n st
  | n + 1, .template :: st => closed n st
  | _, st => st

namespace Scanner

/-- The number of brackets that are open inside the innermost string. -/
def innermost (s : Scanner) : Nat :=
  (s.stack.takeWhile (· == .bracket)).length

/-- The scanner after the closing characters that a line begins with. -/
def afterClosers (s : Scanner) (line : List Char) : Scanner :=
  s.scan (line.takeWhile isCloser)

/-- A line that is not kept begins in code. -/
theorem region_of_not_verbatim {s : Scanner} (h : s.verbatim = false) : s.region = .code := by
  rw [verbatim] at h
  split at h
  · assumption
  · cases h

/-- In a string, a closing character has no effect. -/
theorem step_closer_quoted (st : List Frame) {c : Char} (hc : isCloser c = true)
    (rest : List Char) : step ⟨.quoted :: st, .code⟩ c rest = .next ⟨.quoted :: st, .code⟩ := by
  have hplain : isPlainQuoted c = true := by
    simp only [isCloser, Bool.or_eq_true, beq_iff_eq] at hc
    rcases hc with (rfl | rfl) | rfl <;> rfl
  exact step_plainQuoted st hplain rest

/-- Nothing is closed beyond a string. -/
theorem closed_quoted (n : Nat) (st : List Frame) : closed n (.quoted :: st) = .quoted :: st := by
  cases n <;> rfl

theorem closed_nil (n : Nat) : closed n [] = [] := by
  cases n <;> rfl

/-- Closing characters have no effect beyond the innermost string. -/
theorem run_closers (st : List Frame) {cs : List Char} (hcs : ∀ c ∈ cs, isCloser c = true) :
    run ⟨st, .code⟩ cs = ⟨closed cs.length st, .code⟩ := by
  induction cs generalizing st with
  | nil => cases st <;> rfl
  | cons c cs ih =>
    have hc := hcs c (List.mem_cons_self ..)
    have htail := fun st => ih st fun d hd => hcs d (List.mem_cons_of_mem _ hd)
    cases st with
    | nil =>
      rw [run_of_next (step_closer_code (by simp) hc cs), htail, List.tail_nil, closed_nil,
        closed_nil]
    | cons f st =>
      cases f with
      | bracket =>
        rw [run_of_next (step_closer_code (by simp) hc cs), htail]
        rfl
      | template =>
        rw [run_of_next (step_closer_code (by simp) hc cs), htail]
        rfl
      | quoted =>
        rw [run_of_next (step_closer_quoted st hc cs), htail, closed_quoted, closed_quoted]

/-- Of nested frames, closing characters close the brackets inside the innermost string. -/
theorem count_closed (n : Nat) {st : List Frame} (h : Nested st) :
    (closed n st).count .bracket =
      st.count .bracket - min n (st.takeWhile (· == .bracket)).length := by
  induction n generalizing st with
  | zero => cases st <;> simp [closed]
  | succ n ih =>
    -- What is closed after a template is text of the string around it, so no bracket.
    cases h with
    | nil => simp [closed]
    | bracket h => simp [closed, ih h]
    | quoted h => simp [closed]
    | template h => simp [closed, closed_quoted]

/-- Closing characters close the brackets inside the innermost string, and no others. -/
theorem depth_afterClosers {s : Scanner} (hnested : Nested s.stack) (hcode : s.region = .code)
    (line : List Char) :
    (s.afterClosers line).depth = s.depth - min (leadingClosers line) s.innermost := by
  rcases s with ⟨st, region⟩
  subst hcode
  rw [afterClosers, scan_of_code rfl, run_closers st (forall_takeWhile isCloser line)]
  exact count_closed _ hnested

/-- No more brackets are open in the innermost string than in all. -/
theorem innermost_le_depth (s : Scanner) : s.innermost ≤ s.depth := by
  have hall : ∀ f ∈ s.stack.takeWhile (· == .bracket), .bracket = f := by
    intro f hf
    have hbracket := forall_takeWhile (· == .bracket) s.stack f hf
    simp only [beq_iff_eq] at hbracket
    exact hbracket.symm
  calc s.innermost = (s.stack.takeWhile (· == .bracket)).count .bracket :=
        (List.count_eq_length.2 hall).symm
    _ ≤ s.stack.count .bracket := (List.takeWhile_sublist _).count_le _

end Scanner

/-! ## Lines -/

/-- Each line is indented by the scanner in front of it. -/
theorem continuations_eq_zipWith (depth : Nat) (s : Scanner) (ls : List (List Char)) :
    continuations depth s ls = List.zipWith (continuation depth) (s.inFront ls) ls := by
  induction ls generalizing s with
  | nil => rfl
  | cons l ls ih => simp [continuations, Scanner.inFront, ih]

/-- Each line but the first is written from where the scanner stands in front of it. -/
theorem lines_reindent_eq_zipWith (depth : Nat) (raw : List Char) :
    (lines (reindent depth raw)).tail =
      List.zipWith (continuation depth) (lineStates raw) (lines (trim raw)).tail := by
  rw [lines_reindent, lineStates]
  cases lines (trim raw) with
  | nil => rfl
  | cons first rest => simp [reindentLines, continuations_eq_zipWith]

/-- The scanner stands somewhere in front of every line but the first. -/
theorem length_lineStates (raw : List Char) :
    (lineStates raw).length = (lines (trim raw)).tail.length := by
  rw [lineStates]
  cases lines (trim raw) with
  | nil => rfl
  | cons first rest => simp [length_inFront]

/-- Each later line has a scanner in front of it, which indents it. -/
theorem exists_lineState (depth : Nat) (raw : List Char) {i : Nat} {l : List Char}
    (hl : (lines (trim raw))[i + 1]? = some l) :
    ∃ s, (lineStates raw)[i]? = some s ∧
      (lines (reindent depth raw))[i + 1]? = some (continuation depth s l) := by
  rw [← List.getElem?_tail] at hl
  have hlt : i < (lineStates raw).length := by
    rw [length_lineStates]
    exact (List.getElem?_eq_some_iff.1 hl).1
  have hs : (lineStates raw)[i]? = some (lineStates raw)[i] := List.getElem?_eq_getElem hlt
  refine ⟨(lineStates raw)[i], hs, ?_⟩
  rw [← List.getElem?_tail, lines_reindent_eq_zipWith, List.getElem?_zipWith, hs, hl]

/-- A line of code that is not blank is indented by two spaces for each level: at most by those of
its depth and one for each bracket that stays open after the closing characters that it begins with,
and just by these if the closing characters are no more than the brackets inside the innermost
string, or no bracket is open outside of it.  Closing characters beyond these close no bracket. -/
theorem reindent_level_iff (depth : Nat) (raw : List Char) {i : Nat} {l : List Char}
    (hl : (lines (trim raw))[i + 1]? = some l) :
    ∃ s, (lineStates raw)[i]? = some s ∧
      (s.verbatim = false → trim l ≠ [] →
        (s.afterClosers (trim l)).depth = s.depth - min (leadingClosers (trim l)) s.innermost ∧
        ∃ level, (lines (reindent depth raw))[i + 1]? = some (indent (depth + level) ++ trim l) ∧
          level ≤ (s.afterClosers (trim l)).depth ∧
          (level = (s.afterClosers (trim l)).depth ↔
            leadingClosers (trim l) ≤ s.innermost ∨ s.innermost = s.depth)) := by
  rcases exists_lineState depth raw hl with ⟨s, hs, hline⟩
  refine ⟨s, hs, fun hcode hne => ?_⟩
  -- Of the scanner in front of the line only the nesting of its frames is used.
  have hnested := nested_lineStates raw s (List.mem_of_getElem? hs)
  have hdepth := Scanner.depth_afterClosers hnested (Scanner.region_of_not_verbatim hcode) (trim l)
  have hle := s.innermost_le_depth
  rw [continuation_of_code hcode hne] at hline
  refine ⟨hdepth, s.depth - leadingClosers (trim l), hline, ?_, ?_⟩
  · omega
  · omega

/-- A list over several lines, of one call over several lines. -/
def nestedList : List Char :=
  ['[', '\n', 'f', '(', '\n', '1', '\n', ')', ']']

/-- The last line closes a parenthesis and a bracket, and none stays open. -/
theorem reindent_level_nestedList :
    (lines (trim nestedList))[3]? = some [')', ']'] ∧
      (lineStates nestedList)[2]? = some ⟨[.bracket, .bracket], .code⟩ ∧
      (lines (reindent 1 nestedList))[3]? = some (indent 1 ++ [')', ']']) := by
  have hl : (lines (trim nestedList))[3]? = some [')', ']'] := by decide
  have hstate : (lineStates nestedList)[2]? = some ⟨[.bracket, .bracket], .code⟩ := by decide
  rcases reindent_level_iff 1 nestedList hl with ⟨s, hs, hcode⟩
  obtain rfl : _ = s := Option.some.inj (hstate.symm.trans hs)
  rcases hcode rfl (by decide) with ⟨-, level, hline, -, hiff⟩
  obtain rfl : level = 0 := hiff.2 (.inl (by decide))
  exact ⟨hl, hstate, hline⟩

/-- A list of one string with a template over several lines. -/
def templateList : List Char :=
  ['[', '\n', '"', '$', '{', '\n', 'b', '\n', '}', '"', '\n', ']']

/-- The brace at the front of the fourth line ends the template and closes no bracket, but it takes
a level away: the list is still open, and the line is indented as if it were not. -/
theorem not_reindent_level_templateList :
    Grammar.IsExpression templateList ∧
      (lineStates templateList)[2]? = some ⟨[.template, .quoted, .bracket], .code⟩ ∧
      (Scanner.afterClosers ⟨[.template, .quoted, .bracket], .code⟩ ['}', '"']).depth = 1 ∧
      (lines (reindent 1 templateList))[3]? = some (indent 1 ++ ['}', '"']) ∧
      ¬∀ raw, Grammar.IsExpression raw → ∀ depth i s l,
        (lineStates raw)[i]? = some s → (lines (trim raw))[i + 1]? = some l →
        s.verbatim = false → trim l ≠ [] →
        (lines (reindent depth raw))[i + 1]? =
          some (indent (depth + (s.afterClosers (trim l)).depth) ++ trim l) := by
  have hexpression : Grammar.IsExpression templateList :=
    ⟨Grammar.skipTrivia_cons rfl (by decide) (by decide) _, ok_of_toOption (by decide +kernel)⟩
  have hstate : (lineStates templateList)[2]? = some ⟨[.template, .quoted, .bracket], .code⟩ := by
    decide
  have hline : (lines (reindent 1 templateList))[3]? = some (indent 1 ++ ['}', '"']) := by decide
  refine ⟨hexpression, hstate, by decide, hline, ?_⟩
  intro h
  have hopen := h templateList hexpression 1 2 _ ['}', '"'] hstate (by decide) rfl (by decide)
  rw [hline] at hopen
  revert hopen
  decide

end HclQuery.Layout
