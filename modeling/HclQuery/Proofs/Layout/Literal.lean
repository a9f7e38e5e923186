import HclQuery.Proofs.Label
import HclQuery.Proofs.Layout.Code

/-!
# The literal of a label to the scanner

The scanner takes doubled markers in pairs from the left, whatever follows them, while the literal
doubles just the last marker in front of a brace.  So an even number of the same marker in front of
a brace becomes an odd one, the last of which opens a template to the scanner.  Every other label is
one closed string to it.

Main definitions:

- {lit}`Scanner.trail`: where the scanner stands on its way through a line.
- {lit}`Scanner.Closed`: a text after which no frame is open, on which none was a template.
- {lit}`EvenRun`: an even number of the same marker stands in front of a brace.

Main results:

- Theorem {lit}`Scanner.getLast?_trail`: the way through a line ends where the line does.
- Theorem {lit}`closed_escape_iff`: which labels are closed by the quote after them.
- Theorem {lit}`quote_closed_iff`: which literals are one closed string to the scanner.
-/

namespace HclQuery.Layout

open Label (isMarker escape escapeChar quote)

/-! ## The way through a line -/

namespace Scanner

/-- Where the scanner stands on its way through a line, from the front of the line to its end. -/
def trail (s : Scanner) : List Char → List Scanner
  | [] => [s]
  | c :: rest =>
    s :: match s.step c rest with
      | .next s => trail s rest
      | .skip s =>
        match rest with
        | [] => [s]
        | _ :: rest => trail s rest
      | .stop s => [s]

/-- The way through a line goes on after a move by one character. -/
theorem trail_of_next {s s' : Scanner} {c : Char} {rest : List Char}
    (h : s.step c rest = .next s') : s.trail (c :: rest) = s :: s'.trail rest := by
  rw [trail, h]

/-- The way through a line goes on after a move by two characters. -/
theorem trail_of_skip {s s' : Scanner} {c d : Char} {rest : List Char}
    (h : s.step c (d :: rest) = .skip s') : s.trail (c :: d :: rest) = s :: s'.trail rest := by
  rw [trail, h]

theorem trail_ne_nil (s : Scanner) (l : List Char) : s.trail l ≠ [] := by
  cases l <;> simp [trail]

/-- The way through a line ends where the line does. -/
theorem getLast?_trail (s : Scanner) (l : List Char) : (s.trail l).getLast? = some (s.run l) := by
  fun_induction run s l with
  | case1 s => rfl
  | case2 s c rest s' hstep ih =>
    rw [trail_of_next hstep, List.getLast?_cons_of_ne_nil (trail_ne_nil _ _), ih]
  | case3 s c s' hstep =>
    rw [trail, hstep]
    rfl
  | case4 s c s' d rest hstep ih =>
    rw [trail_of_skip hstep, List.getLast?_cons_of_ne_nil (trail_ne_nil _ _), ih]
  | case5 s c rest s' hstep =>
    rw [trail, hstep]
    rfl

/-- After the text no frame is open, and on the way none was a template. -/
def Closed (s : Scanner) (t : List Char) : Prop :=
  s.run t = initial ∧ ∀ u ∈ s.trail t, .template ∉ u.stack

/-- A move by one character outside templates makes no difference. -/
theorem closed_of_next {s s' : Scanner} {c : Char} {rest : List Char}
    (h : s.step c rest = .next s') (hs : .template ∉ s.stack) :
    s.Closed (c :: rest) ↔ s'.Closed rest := by
  simp [Closed, run_of_next h, trail_of_next h, hs]

/-- A move by two characters outside templates makes no difference. -/
theorem closed_of_skip {s s' : Scanner} {c d : Char} {rest : List Char}
    (h : s.step c (d :: rest) = .skip s') (hs : .template ∉ s.stack) :
    s.Closed (c :: d :: rest) ↔ s'.Closed rest := by
  simp [Closed, run_of_skip h, trail_of_skip h, hs]

/-- A template that is opened stands on the way. -/
theorem not_closed_of_template {s : Scanner} (hs : .template ∈ s.stack) (t : List Char) :
    ¬s.Closed t := by
  rintro ⟨-, htrail⟩
  refine htrail s ?_ hs
  cases t <;> simp [trail]

end Scanner

/-! ## Runs of markers -/

/-- An even number of the same marker stands in front of a brace, and no more of them. -/
def EvenRun (t : List Char) : Prop :=
  ∃ front c n rest, isMarker c = true ∧ front.getLast? ≠ some c ∧
    t = front ++ (List.replicate (2 * n + 2) c ++ '{' :: rest)

theorem not_evenRun_nil : ¬EvenRun [] := by
  rintro ⟨front, c, n, rest, -, -, h⟩
  simp at h

/-- A character that does not begin a pair of markers makes no difference. -/
theorem evenRun_cons {d : Char} {t : List Char} (h : isMarker d = true → t.head? ≠ some d) :
    EvenRun (d :: t) ↔ EvenRun t := by
  constructor
  · rintro ⟨front, c, n, rest, hc, hfront, ht⟩
    cases front with
    | nil =>
      rw [List.nil_append, List.replicate_succ, List.cons_append, List.cons.injEq] at ht
      rcases ht with ⟨rfl, rfl⟩
      exact absurd rfl (h hc)
    | cons e front =>
      rw [List.cons_append, List.cons.injEq] at ht
      refine ⟨front, c, n, rest, hc, fun hlast => hfront ?_, ht.2⟩
      rw [List.getLast?_cons, hlast]
      rfl
  · rintro ⟨front, c, n, rest, hc, hfront, rfl⟩
    refine ⟨d :: front, c, n, rest, hc, ?_, rfl⟩
    cases front with
    | nil =>
      rintro heq
      cases heq
      exact h hc rfl
    | cons e front => rwa [List.getLast?_cons_cons]

/-- Two of the same marker make a difference just in front of a brace. -/
theorem evenRun_pair {d : Char} (hd : isMarker d = true) {t : List Char} :
    EvenRun (d :: d :: t) ↔ t.head? = some '{' ∨ EvenRun t := by
  constructor
  · rintro ⟨front, c, n, rest, hc, hfront, ht⟩
    rcases front with _ | ⟨e, _ | ⟨f, front⟩⟩
    · rw [List.nil_append, List.replicate_succ, List.replicate_succ, List.cons_append,
        List.cons_append, List.cons.injEq, List.cons.injEq] at ht
      rcases ht with ⟨rfl, -, rfl⟩
      cases n with
      | zero => exact .inl rfl
      | succ n => exact .inr ⟨[], d, n, rest, hd, by simp, rfl⟩
    · rw [List.replicate_succ, List.cons_append, List.nil_append, List.cons_append, List.cons.injEq,
        List.cons.injEq] at ht
      rcases ht with ⟨rfl, rfl, -⟩
      exact absurd rfl hfront
    · rw [List.cons_append, List.cons_append, List.cons.injEq, List.cons.injEq] at ht
      refine .inr ⟨front, c, n, rest, hc, fun hlast => hfront ?_, ht.2.2⟩
      rw [List.getLast?_cons_cons, List.getLast?_cons, hlast]
      rfl
  · rintro (hbrace | ⟨front, c, n, rest, hc, hfront, rfl⟩)
    · rcases List.head?_eq_some_iff.1 hbrace with ⟨rest, rfl⟩
      exact ⟨[], d, 0, rest, hd, by simp, rfl⟩
    · by_cases hrun : front = [] ∧ c = d
      · rcases hrun with ⟨rfl, rfl⟩
        exact ⟨[], c, n + 1, rest, hc, by simp, rfl⟩
      · refine ⟨d :: d :: front, c, n, rest, hc, ?_, rfl⟩
        cases front with
        | nil =>
          rintro heq
          cases heq
          exact hrun ⟨rfl, rfl⟩
        | cons e front => rwa [List.getLast?_cons_cons, List.getLast?_cons_cons]

/-! ## The inside of a literal -/

/-- The scanner inside a string that stands by itself. -/
def inString : Scanner :=
  ⟨[.quoted], .code⟩

theorem template_not_mem_inString : .template ∉ inString.stack := by decide

theorem isMarker_iff {c : Char} : isMarker c = true ↔ c = '$' ∨ c = '%' := by
  rw [isMarker, Bool.or_eq_true, beq_iff_eq, beq_iff_eq]

/-- What stands in front of the escaped text stands in front of the text. -/
theorem head?_of_escape {c : Char} (hquote : c ≠ '"') (hslash : c ≠ '\\') {t : List Char}
    (h : (escape t ++ ['"']).head? = some c) : t.head? = some c := by
  cases t with
  | nil =>
    cases h
    exact absurd rfl hquote
  | cons d t =>
    have hescaped := Label.escaped_escapeChar d t.head?
    rw [escape, List.append_assoc] at h
    generalize escapeChar d t.head? = u at hescaped h
    cases hescaped with
    | letter hd hc =>
      cases h
      exact absurd rfl hslash
    | doubled hmarker hnext => exact h
    | code hcontrol =>
      cases h
      exact absurd rfl hslash
    | plain hquote' hslash' hcontrol hmarker => exact h

theorem isPlainQuoted_fourDigits : ∀ n < 160, (Label.fourDigits n).all isPlainQuoted = true := by
  decide +kernel

/-- Characters that stand for themselves make no difference. -/
theorem closed_plain {u : List Char} (hu : u.all isPlainQuoted = true) (t : List Char) :
    inString.Closed (u ++ t) ↔ inString.Closed t := by
  induction u with
  | nil => rfl
  | cons c u ih =>
    rw [List.all_cons, Bool.and_eq_true] at hu
    have hstep : inString.step c (u ++ t) = .next inString := Scanner.step_plainQuoted [] hu.1 _
    rw [List.cons_append, Scanner.closed_of_next hstep template_not_mem_inString]
    exact ih hu.2

/-- An escape makes no difference. -/
theorem closed_slash (c : Char) (t : List Char) :
    inString.Closed ('\\' :: c :: t) ↔ inString.Closed t :=
  Scanner.closed_of_skip rfl template_not_mem_inString

/-- An escaped character is passed over, unless it begins a pair of markers. -/
theorem closed_escapeChar {d : Char} {t : List Char} (h : isMarker d = true → t.head? ≠ some d) :
    inString.Closed (escapeChar d t.head? ++ (escape t ++ ['"'])) ↔
      inString.Closed (escape t ++ ['"']) := by
  have hescaped := Label.escaped_escapeChar d t.head?
  generalize escapeChar d t.head? = u at hescaped
  cases hescaped with
  | letter hd hc => exact closed_slash _ _
  | doubled hmarker hnext =>
    exact Scanner.closed_of_skip (Scanner.step_doubled [] (isMarker_iff.1 hmarker) _)
      template_not_mem_inString
  | code hcontrol =>
    rw [List.cons_append, List.cons_append, closed_slash]
    exact closed_plain (isPlainQuoted_fourDigits _ (Label.isControl_lt hcontrol)) _
  | plain hquote hslash hcontrol hmarker =>
    by_cases hd : isMarker d = true
    · -- A single marker: neither itself nor a brace follows it.
      rw [hd, Bool.true_and, beq_eq_false_iff_ne] at hmarker
      refine Scanner.closed_of_next (Scanner.step_mark [] (isMarker_iff.1 hd) ?_ ?_)
        template_not_mem_inString
      · exact fun hsame => h hd (head?_of_escape hquote hslash hsame)
      · exact fun hbrace => hmarker (head?_of_escape (by decide) (by decide) hbrace)
    · rw [isMarker_iff, not_or] at hd
      exact closed_plain (by simp [isPlainQuoted, hquote, hslash, hd]) _

/-- Two of the same marker are passed over, unless a brace follows them: then the second of them is
doubled, and the last of the three opens a template. -/
theorem closed_pair {d : Char} (hd : isMarker d = true) (t : List Char) :
    inString.Closed (escape (d :: d :: t) ++ ['"']) ↔
      t.head? ≠ some '{' ∧ inString.Closed (escape t ++ ['"']) := by
  have hfirst : escapeChar d (some d) = [d] := by
    rcases isMarker_iff.1 hd with rfl | rfl <;> rfl
  have hpair : ∀ u, inString.Closed (d :: d :: u) ↔ inString.Closed u := fun u =>
    Scanner.closed_of_skip (Scanner.step_doubled [] (isMarker_iff.1 hd) u)
      template_not_mem_inString
  rw [escape, escape, List.head?_cons, hfirst]
  by_cases hbrace : t.head? = some '{'
  · rcases List.head?_eq_some_iff.1 hbrace with ⟨rest, rfl⟩
    have hsecond : escapeChar d (some '{') = [d, d] := by
      rcases isMarker_iff.1 hd with rfl | rfl <;> rfl
    have hopen : escapeChar '{' rest.head? = ['{'] := rfl
    rw [escape, List.head?_cons, hsecond, hopen]
    simp only [List.cons_append, List.nil_append, ne_eq, not_true_eq_false, false_and, iff_false]
    have hstep : inString.step d ('{' :: (escape rest ++ ['"'])) =
        .skip (.inBrackets 0 [.template, .quoted]) :=
      Scanner.step_template [] (isMarker_iff.1 hd) _
    rw [hpair, Scanner.closed_of_skip hstep template_not_mem_inString]
    exact Scanner.not_closed_of_template (by decide) _
  · have hsecond : escapeChar d t.head? = [d] := by
      rcases isMarker_iff.1 hd with rfl | rfl <;> simp [escapeChar, hbrace] <;> decide
    rw [hsecond]
    simp only [List.cons_append, List.nil_append, ne_eq, hbrace, not_false_eq_true, true_and]
    exact hpair _

/-- The quote after an escaped text closes it, with no template on the way, just if the text has no
even run of a marker in front of a brace. -/
theorem closed_escape_iff (t : List Char) :
    inString.Closed (escape t ++ ['"']) ↔ ¬EvenRun t := by
  match t with
  | [] =>
    refine iff_of_true ⟨rfl, ?_⟩ not_evenRun_nil
    decide
  | d :: t =>
    by_cases hpair : isMarker d = true ∧ t.head? = some d
    · rcases hpair with ⟨hd, hhead⟩
      rcases List.head?_eq_some_iff.1 hhead with ⟨rest, rfl⟩
      rw [closed_pair hd, evenRun_pair hd, closed_escape_iff rest, not_or]
    · have hd : isMarker d = true → t.head? ≠ some d := fun hd hhead => hpair ⟨hd, hhead⟩
      rw [escape, List.append_assoc, closed_escapeChar hd, evenRun_cons hd, closed_escape_iff t]
termination_by t.length

/-! ## Literals -/

/-- A literal is one closed string to the scanner, in which no template opens, just if its label has
no even run of a marker in front of a brace. -/
theorem quote_closed_iff (label : String) :
    (Scanner.initial.scan (quote label).toList = Scanner.initial ∧
      ∀ s ∈ Scanner.initial.trail (quote label).toList, .template ∉ s.stack) ↔
    ¬EvenRun label.toList := by
  have hopen : ∀ u, Scanner.initial.Closed ('"' :: u) ↔ inString.Closed u := fun u =>
    Scanner.closed_of_next rfl (by decide)
  rw [Scanner.scan_of_code rfl, Label.toList_quote, ← closed_escape_iff, ← hopen]
  rfl

/-- Two dollar signs in front of a brace: the literal opens a template to the scanner and is not
closed by its last quote.  The label is read back from it all the same, and what follows it in a
value is indented as if it stood in the template. -/
theorem not_quote_closed :
    ¬(Scanner.initial.scan (quote "$$\x7b").toList = Scanner.initial ∧
      ∀ s ∈ Scanner.initial.trail (quote "$$\x7b").toList, .template ∉ s.stack) ∧
    Scanner.initial.scan (quote "$$\x7b").toList = ⟨[.quoted, .template, .quoted], .code⟩ ∧
    Label.unquote (quote "$$\x7b") = "$$\x7b" ∧
    reindent 0 ("[\n".toList ++ ((quote "$$\x7b").toList ++ ", [\n1\n]\n]".toList)) =
      "[\n  \"$$$\x7b\", [\n  1\n]\n]".toList := by
  have hscan : Scanner.initial.scan (quote "$$\x7b").toList =
      ⟨[.quoted, .template, .quoted], .code⟩ := by
    decide +kernel
  refine ⟨?_, hscan, Label.unquote_quote _, by decide +kernel⟩
  rintro ⟨hinitial, -⟩
  rw [hscan] at hinitial
  cases hinitial

end HclQuery.Layout
