import HclQuery.Proofs.Layout.Reindent

/-!
# The lexical structure of expression code

What stands in front of a place in a value is described by the lexical structure of expression code
alone: brackets, strings with their templates, comments and heredocs.  The scanner knows at such a
place what the structure says, the number of open brackets, over any number of lines.

The scanner takes the marker of a heredoc to end at its first dash, so the heredocs in front of the
place are those without a dash in their markers.

Main definitions:

- {lit}`Heredoc`: the lines of a heredoc.
- {lit}`Code`: reading expression code up to a place outside strings, comments and heredocs.
- {lit}`Scanner.through`: the scanner after a text of several lines.

Main results:

- Theorem {lit}`Heredoc.heredocMarker_label`: what the scanner takes for the marker of a heredoc.
- Theorem {lit}`Code.through_eq`: the scanner agrees with the lexical structure.
-/

namespace HclQuery.Layout

open Text

/-! ## Heredocs -/

/-- The characters of an identifier, as they stand in a heredoc's marker. -/
def isMarkerChar (c : Char) : Bool :=
  isAlphanumeric c || c == '_' || c == '-'

/-- A heredoc: its first line from the `<<` on, the lines of its body, and the line that closes
it. -/
structure Heredoc where
  /-- The marker is written after `<<-`, not after `<<`. -/
  dashed : Bool
  marker : List Char
  /-- The rest of the first line, after the marker. -/
  tail : List Char
  body : List (List Char)
  closing : List Char
  marker_chars : ∀ c ∈ marker, isMarkerChar c = true
  marker_ne_nil : marker ≠ []
  marker_head : marker.head? ≠ some '-'
  tail_line : '\n' ∉ tail
  tail_head : ∀ c, tail.head? = some c → isMarkerChar c = false
  body_lines : ∀ l ∈ body, '\n' ∉ l
  body_open : ∀ l ∈ body, trim l ≠ marker
  closing_line : '\n' ∉ closing
  closes : trim closing = marker

namespace Heredoc

/-- What follows the `<<` on the first line. -/
def label (d : Heredoc) : List Char :=
  (if d.dashed then ['-'] else []) ++ (d.marker ++ d.tail)

/-- The first line. -/
def opener (d : Heredoc) : List Char :=
  '<' :: '<' :: d.label

/-- The lines after the first. -/
def rest (d : Heredoc) : List (List Char) :=
  d.body ++ [d.closing]

/-- The marker up to its first dash. -/
def front (d : Heredoc) : List Char :=
  d.marker.takeWhile (· != '-')

end Heredoc

/-! ## The lexical structure of expression code -/

/-- The characters that stand for themselves in expression code, whatever follows. -/
def isPlainCode (c : Char) : Bool :=
  !isOpener c && !isCloser c && c != '"' && c != '#' && c != '/' && c != '<'

/-- The characters that stand for themselves in a string. -/
def isPlainQuoted (c : Char) : Bool :=
  c != '\\' && c != '"' && c != '$' && c != '%'

mutual

/-- Reading expression code at a text reaches a place, given by what remains there, that is in no
string, comment or heredoc.  The numbers are those of the open brackets before and after. -/
inductive Code : Nat → List Char → Nat → List Char → Prop where
  | done {m : Nat} {r : List Char} : Code m r m r
  | plain {m n : Nat} {c : Char} {t r : List Char} (hc : isPlainCode c = true)
      (h : Code m t n r) : Code m (c :: t) n r
  | opener {m n : Nat} {c : Char} {t r : List Char} (hc : isOpener c = true)
      (h : Code (m + 1) t n r) : Code m (c :: t) n r
  | closer {m n : Nat} {c : Char} {t r : List Char} (hc : isCloser c = true)
      (h : Code m t n r) : Code (m + 1) (c :: t) n r
  /-- A slash that begins no comment. -/
  | slash {m n : Nat} {t r : List Char} (hslash : t.head? ≠ some '/') (hstar : t.head? ≠ some '*')
      (h : Code m t n r) : Code m ('/' :: t) n r
  /-- A sign that begins no heredoc. -/
  | less {m n : Nat} {t r : List Char} (hless : t.head? ≠ some '<')
      (h : Code m t n r) : Code m ('<' :: t) n r
  | string {m n : Nat} {t u r : List Char} (hq : Quoted t u)
      (h : Code m u n r) : Code m ('"' :: t) n r
  | hash {m n : Nat} {b t r : List Char} (hb : '\n' ∉ b)
      (h : Code m t n r) : Code m ('#' :: (b ++ '\n' :: t)) n r
  | slashes {m n : Nat} {b t r : List Char} (hb : '\n' ∉ b)
      (h : Code m t n r) : Code m ('/' :: '/' :: (b ++ '\n' :: t)) n r
  | block {m n : Nat} {b t r : List Char} (hb : ¬['*', '/'] <:+: b)
      (h : Code m t n r) : Code m ('/' :: '*' :: (b ++ '*' :: '/' :: t)) n r
  | heredoc {m n : Nat} {d : Heredoc} {t r : List Char} (hd : '-' ∉ d.marker)
      (h : Code m t n r) : Code m (d.opener ++ '\n' :: (unlines d.rest ++ '\n' :: t)) n r

/-- Reading a string at a text inside it reaches the place after its closing quote. -/
inductive Quoted : List Char → List Char → Prop where
  | close {r : List Char} : Quoted ('"' :: r) r
  | plain {c : Char} {t r : List Char} (hc : isPlainQuoted c = true)
      (h : Quoted t r) : Quoted (c :: t) r
  | escape {c : Char} {t r : List Char} (h : Quoted t r) : Quoted ('\\' :: c :: t) r
  /-- A template mark before neither itself nor a brace. -/
  | mark {c : Char} {t r : List Char} (hc : c = '$' ∨ c = '%') (hsame : t.head? ≠ some c)
      (hbrace : t.head? ≠ some '{') (h : Quoted t r) : Quoted (c :: t) r
  | doubled {c : Char} {t r : List Char} (hc : c = '$' ∨ c = '%')
      (h : Quoted t r) : Quoted (c :: c :: t) r
  /-- A template, whose code has all its brackets closed at the brace that ends it. -/
  | template {c : Char} {t u r : List Char} (hc : c = '$' ∨ c = '%') (hcode : Code 0 t 0 ('}' :: u))
      (h : Quoted u r) : Quoted (c :: '{' :: t) r

end

/-! ## Texts of several lines -/

namespace Scanner

/-- A run goes on after a move by one character. -/
theorem run_of_next {s s' : Scanner} {c : Char} {rest : List Char}
    (h : s.step c rest = .next s') : s.run (c :: rest) = s'.run rest := by
  rw [run, h]

/-- A run goes on after a move by two characters. -/
theorem run_of_skip {s s' : Scanner} {c d : Char} {rest : List Char}
    (h : s.step c (d :: rest) = .skip s') : s.run (c :: d :: rest) = s'.run rest := by
  rw [run, h]

/-- The scanner after the lines of a text. -/
def thenLines (s : Scanner) (t : List Char) : Scanner :=
  (lines t).foldl scan s

/-- The scanner after a text that begins inside a line. -/
def through (s : Scanner) (t : List Char) : Scanner :=
  match lines t with
  | [] => s
  | l :: ls => ls.foldl scan (s.run l)

/-- The scanner is outside heredocs, where it reads the characters of a line. -/
def Outside (s : Scanner) : Prop :=
  ∀ m, s.region ≠ .heredoc m

/-- Outside heredocs and comments a line is read from its front. -/
theorem Outside.scan_eq {s : Scanner} (h : s.Outside) (l : List Char) : s.scan l = s.run l := by
  rw [scan.eq_def]
  split
  · next m heq => exact absurd heq (h m)
  · rfl

/-- In code the scanner is outside heredocs. -/
theorem Outside.of_code {s : Scanner} (h : s.region = .code) : s.Outside := by
  intro m heq
  rw [h] at heq
  cases heq

theorem Outside.of_comment {s : Scanner} (h : s.region = .comment) : s.Outside := by
  intro m heq
  rw [h] at heq
  cases heq

/-- Outside heredocs, what remains of a line is read like a line. -/
theorem Outside.thenLines_eq {s : Scanner} (h : s.Outside) (t : List Char) :
    s.thenLines t = s.through t := by
  rw [thenLines, through]
  cases hl : lines t with
  | nil => rfl
  | cons l ls => rw [List.foldl_cons, h.scan_eq]

/-- A text is what remains of its first line, and then its other lines. -/
theorem through_of_lines {t l : List Char} {ls : List (List Char)} (hl : lines t = l :: ls)
    (s : Scanner) : s.through t = ls.foldl scan (s.run l) := by
  rw [through, hl]

/-- Up to the end of a line the scanner runs, and then it goes on to the next one. -/
theorem through_append_newline {b : List Char} (hb : '\n' ∉ b) (s : Scanner) (t : List Char) :
    s.through (b ++ '\n' :: t) = (s.run b).thenLines t := by
  rw [through_of_lines (lines_append_newline hb t), thenLines]

/-- A character that has its effect by itself. -/
theorem through_next {s s' : Scanner} (hs : s.Outside) {c : Char} {t : List Char}
    (h : ∀ l, (∀ d, l.head? = some d → t.head? = some d) → s.step c l = .next s') :
    s.through (c :: t) = s'.through t := by
  rcases exists_lines t with ⟨l, ls, hl⟩
  have hstep := h l fun d => head?_of_lines hl
  by_cases hc : c = '\n'
  · subst hc
    rw [step_of_isBlank s rfl] at hstep
    cases hstep
    exact (through_append_newline List.not_mem_nil s t).trans (hs.thenLines_eq t)
  · rw [through_of_lines (lines_cons hc hl), through_of_lines hl, run, hstep]

/-- A character that takes the next one with it. -/
theorem through_skip {s s' : Scanner} {c d : Char} (hc : c ≠ '\n') (hd : d ≠ '\n') {t : List Char}
    (h : ∀ l, s.step c (d :: l) = .skip s') : s.through (c :: d :: t) = s'.through t := by
  rcases exists_lines t with ⟨l, ls, hl⟩
  rw [through_of_lines (lines_cons hc (lines_cons hd hl)), through_of_lines hl, run, h]

/-- A character that leaves the rest of its line without effect. -/
theorem through_stop {s s' : Scanner} {c : Char} {b : List Char} (hc : c ≠ '\n') (hb : '\n' ∉ b)
    (h : s.step c b = .stop s') (t : List Char) :
    s.through (c :: (b ++ '\n' :: t)) = s'.thenLines t := by
  have hl := lines_cons hc (lines_append_newline hb t)
  rw [through_of_lines hl, run, h, thenLines]

/-! ## Comments -/

/-- A block comment, after the mark that opens it. -/
theorem through_comment {b : List Char} (hb : ¬['*', '/'] <:+: b) (σ : List Frame) (t : List Char) :
    (Scanner.mk σ .comment).through (b ++ '*' :: '/' :: t) = (Scanner.mk σ .code).through t := by
  induction b with
  | nil => exact through_skip (by decide) (by decide) fun l => rfl
  | cons c b ih =>
    rw [← ih fun hinner => hb (hinner.trans (List.suffix_cons c b).isInfix)]
    refine through_next (.of_comment rfl) fun l hhead => ?_
    have hopen : ¬(c = '*' ∧ l.head? = some '/') := by
      rintro ⟨rfl, hl⟩
      have hfront := hhead '/' hl
      -- The slash belongs to the comment, or it is the star of the closing mark.
      cases b with
      | nil => cases hfront
      | cons e b =>
        cases hfront
        exact hb (List.prefix_append ['*', '/'] b).isInfix
    exact if_neg hopen

/-! ## Heredocs -/

/-- Lines that are not the marker leave the scanner in its heredoc. -/
theorem foldl_scan_body {m : List Char} {body : List (List Char)} (h : ∀ l ∈ body, trim l ≠ m)
    (σ : List Frame) : body.foldl scan ⟨σ, .heredoc m⟩ = ⟨σ, .heredoc m⟩ := by
  induction body with
  | nil => rfl
  | cons l body ih =>
    have hl : (Scanner.mk σ (.heredoc m)).scan l = ⟨σ, .heredoc m⟩ :=
      if_neg (h l (List.mem_cons_self ..))
    rw [List.foldl_cons, hl, ih fun l' hl' => h l' (List.mem_cons_of_mem l hl')]

/-- The line that is the marker closes a heredoc. -/
theorem scan_closing {m l : List Char} (h : trim l = m) (σ : List Frame) :
    (Scanner.mk σ (.heredoc m)).scan l = ⟨σ, .code⟩ :=
  if_pos h

end Scanner

namespace Heredoc

/-- What follows the sign of a heredoc is on its line. -/
theorem label_line (d : Heredoc) : '\n' ∉ d.label := by
  have hmarker : '\n' ∉ d.marker := by
    intro hmem
    have hchar := d.marker_chars '\n' hmem
    revert hchar
    decide
  rw [label, List.mem_append, List.mem_append]
  rintro (hdash | hmem | hmem)
  · split at hdash
    · cases List.mem_singleton.1 hdash
    · cases hdash
  · exact hmarker hmem
  · exact d.tail_line hmem

/-- A heredoc is opened on one line. -/
theorem opener_line (d : Heredoc) : '\n' ∉ d.opener := by
  rw [opener, List.mem_cons, List.mem_cons]
  rintro (heq | heq | hmem)
  · cases heq
  · cases heq
  · exact d.label_line hmem

/-- Each later line of a heredoc is one line. -/
theorem rest_lines (d : Heredoc) : ∀ l ∈ d.rest, '\n' ∉ l := by
  intro l hl
  rcases List.mem_append.1 hl with hl | hl
  · exact d.body_lines l hl
  · rw [List.mem_singleton.1 hl]
    exact d.closing_line

theorem rest_ne_nil (d : Heredoc) : d.rest ≠ [] :=
  List.append_ne_nil_of_right_ne_nil _ (List.cons_ne_nil _ _)

/-- In a marker the scanner stops at dashes alone. -/
theorem isWord_marker (d : Heredoc) {c : Char} (hc : c ∈ d.marker) :
    (isAlphanumeric c || c == '_') = (c != '-') := by
  have hchar := d.marker_chars c hc
  by_cases hdash : c = '-'
  · subst hdash
    rfl
  · have hne : (c != '-') = true := bne_iff_ne.2 hdash
    rw [hne]
    simpa [isMarkerChar, hdash] using hchar

/-- Behind a marker the scanner stops at once. -/
theorem takeWhile_tail (d : Heredoc) :
    d.tail.takeWhile (fun c => isAlphanumeric c || c == '_') = [] := by
  have hhead := d.tail_head
  cases htail : d.tail with
  | nil => rfl
  | cons c t =>
    rw [htail] at hhead
    have hchar := hhead c rfl
    simp only [isMarkerChar, Bool.or_eq_false_iff] at hchar
    exact List.takeWhile_cons_of_neg (by simp [hchar])

/-- The scanner takes a marker up to its first dash. -/
theorem heredocMarker_label (d : Heredoc) : heredocMarker d.label = d.front := by
  rcases List.exists_cons_of_ne_nil d.marker_ne_nil with ⟨c, u, hmarker⟩
  have hc : c ≠ '-' := by
    have hhead := d.marker_head
    rw [hmarker] at hhead
    exact fun heq => hhead (congrArg some heq)
  have hdrop : d.label.dropWhile (· == '-') = d.marker ++ d.tail := by
    rw [label, hmarker]
    split <;> simp [hc]
  have htake : ∀ v, (∀ e ∈ v, e ∈ d.marker) →
      (v ++ d.tail).takeWhile (fun c => isAlphanumeric c || c == '_') =
        v.takeWhile (· != '-') := by
    intro v hv
    induction v with
    | nil => exact d.takeWhile_tail
    | cons e v ih =>
      rw [List.cons_append, List.takeWhile_cons, List.takeWhile_cons,
        d.isWord_marker (hv e (List.mem_cons_self ..)),
        ih fun e' he' => hv e' (List.mem_cons_of_mem e he')]
  rw [heredocMarker, hdrop, htake d.marker fun e he => he, front]

/-- The part of a marker that the scanner sees is not empty. -/
theorem front_ne_nil (d : Heredoc) : d.front ≠ [] := by
  rcases List.exists_cons_of_ne_nil d.marker_ne_nil with ⟨c, u, hmarker⟩
  have hhead := d.marker_head
  rw [hmarker] at hhead
  have hc : (c != '-') = true := bne_iff_ne.2 fun heq => hhead (congrArg some heq)
  rw [front, hmarker, List.takeWhile_cons, if_pos hc]
  exact List.cons_ne_nil _ _

/-- The scanner sees the whole of a marker when no dash is in it. -/
theorem front_eq_iff (d : Heredoc) : d.front = d.marker ↔ '-' ∉ d.marker := by
  constructor
  · intro h hdash
    rw [← h] at hdash
    have hne := forall_takeWhile (· != '-') d.marker '-' hdash
    cases hne
  · intro h
    rw [front, ← List.append_nil d.marker, List.takeWhile_append_of_pos]
    · rfl
    · exact fun c hc => bne_iff_ne.2 fun heq => h (heq ▸ hc)

end Heredoc

namespace Scanner

/-! ## Strings and code -/

/-- The scanner in expression code with brackets open. -/
def inBrackets (m : Nat) (σ : List Frame) : Scanner :=
  ⟨List.replicate m .bracket ++ σ, .code⟩

theorem stepQuoted_eq (σ : List Frame) (c : Char) (l : List Char) :
    (Scanner.mk (.quoted :: σ) .code).step c l = stepQuoted ⟨.quoted :: σ, .code⟩ c l := rfl

theorem ne_newline_of_mark {c : Char} (hc : c = '$' ∨ c = '%') : c ≠ '\n' := by
  rcases hc with rfl | rfl <;> decide

/-- Outside of strings a closing character ends what is open. -/
theorem step_closer_code {st : List Frame} (hst : st.head? ≠ some .quoted) {c : Char}
    (hc : isCloser c = true) (rest : List Char) :
    step ⟨st, .code⟩ c rest = .next ⟨st.tail, .code⟩ := by
  have hquoted : inQuoted ⟨st, .code⟩ = false := by simpa [inQuoted] using hst
  simp only [isCloser, Bool.or_eq_true, beq_iff_eq] at hc
  rcases hc with (rfl | rfl) | rfl <;> simp [step, hquoted, stepCode, isOpener, isCloser, pop]

/-- A closing bracket closes the innermost one that is open. -/
theorem step_closer (σ : List Frame) (m : Nat) {c : Char} (hc : isCloser c = true) (l : List Char) :
    (inBrackets (m + 1) σ).step c l = .next (inBrackets m σ) :=
  step_closer_code (by simp [List.replicate_succ]) hc l

section

variable {σ : List Frame} (hσ : σ.head? ≠ some .quoted) (m : Nat)
include hσ

/-- In brackets the scanner moves as in code. -/
theorem stepCode_eq (c : Char) (l : List Char) :
    (inBrackets m σ).step c l = stepCode (inBrackets m σ) c l := by
  have hquoted : (inBrackets m σ).inQuoted = false := by
    cases m with
    | zero => simpa [inQuoted, inBrackets] using hσ
    | succ m => rfl
  rw [step]
  simp only [inBrackets] at hquoted ⊢
  simp only [hquoted, Bool.false_eq_true, if_false]

/-- A plain character is passed over. -/
theorem step_plainCode {c : Char} (hc : isPlainCode c = true) (l : List Char) :
    (inBrackets m σ).step c l = .next (inBrackets m σ) := by
  rw [stepCode_eq hσ]
  simp [isPlainCode] at hc
  simp [stepCode, hc]

/-- An opening bracket is one more that is open. -/
theorem step_opener {c : Char} (hc : isOpener c = true) (l : List Char) :
    (inBrackets m σ).step c l = .next (inBrackets (m + 1) σ) := by
  have hquote : c ≠ '"' := by
    rintro rfl
    cases hc
  rw [stepCode_eq hσ, stepCode, if_neg hquote, if_pos hc]
  rfl

/-- A slash that begins no comment is passed over. -/
theorem step_slash {l : List Char} (hslash : l.head? ≠ some '/') (hstar : l.head? ≠ some '*') :
    (inBrackets m σ).step '/' l = .next (inBrackets m σ) := by
  rw [stepCode_eq hσ]
  simp [stepCode, isOpener, isCloser, hslash, hstar]

/-- A sign that begins no heredoc is passed over. -/
theorem step_less {l : List Char} (hless : l.head? ≠ some '<') :
    (inBrackets m σ).step '<' l = .next (inBrackets m σ) := by
  rw [stepCode_eq hσ]
  simp [stepCode, isOpener, isCloser, hless]

/-- A quote opens a string. -/
theorem step_quote (l : List Char) :
    (inBrackets m σ).step '"' l = .next ⟨.quoted :: (List.replicate m .bracket ++ σ), .code⟩ :=
  stepCode_eq hσ m _ l

/-- At a hash the rest of the line is left out. -/
theorem step_hash (l : List Char) :
    (inBrackets m σ).step '#' l = .stop (inBrackets m σ) :=
  stepCode_eq hσ m _ l

/-- At two slashes the rest of the line is left out. -/
theorem step_slashes (l : List Char) :
    (inBrackets m σ).step '/' ('/' :: l) = .stop (inBrackets m σ) :=
  stepCode_eq hσ m _ _

/-- A slash and a star open a comment. -/
theorem step_block (l : List Char) :
    (inBrackets m σ).step '/' ('*' :: l) =
      .skip ⟨List.replicate m .bracket ++ σ, .comment⟩ :=
  stepCode_eq hσ m _ _

/-- The first line of a heredoc is the last that is read before its body. -/
theorem step_heredoc (d : Heredoc) :
    (inBrackets m σ).step '<' ('<' :: d.label) =
      .stop { inBrackets m σ with region := .heredoc d.front } := by
  have hne : d.front.isEmpty = false := by
    rw [List.isEmpty_eq_false_iff]
    exact d.front_ne_nil
  rw [stepCode_eq hσ]
  simp [stepCode, isOpener, isCloser, d.heredocMarker_label, hne]

/-- The first line of a heredoc leads into it, with the marker up to its first dash. -/
theorem run_opener (d : Heredoc) :
    (inBrackets m σ).run d.opener = ⟨List.replicate m .bracket ++ σ, .heredoc d.front⟩ := by
  rw [Heredoc.opener, run, step_heredoc hσ]
  rfl

/-- The text of a heredoc, up to the line after it. -/
theorem through_heredoc {d : Heredoc} (hd : '-' ∉ d.marker) (t : List Char) :
    (inBrackets m σ).through (d.opener ++ '\n' :: (unlines d.rest ++ '\n' :: t)) =
      (inBrackets m σ).through t := by
  rw [through_append_newline d.opener_line, run_opener hσ, d.front_eq_iff.2 hd, thenLines,
    lines_append, lines_unlines d.rest_ne_nil d.rest_lines, List.foldl_append, Heredoc.rest,
    List.foldl_append, foldl_scan_body d.body_open, List.foldl_cons,
    scan_closing d.closes]
  exact Outside.thenLines_eq (.of_code rfl) t

end

variable (σ : List Frame)

/-- A plain character of a string is passed over. -/
theorem step_plainQuoted {c : Char} (hc : isPlainQuoted c = true) (l : List Char) :
    (Scanner.mk (.quoted :: σ) .code).step c l = .next ⟨.quoted :: σ, .code⟩ := by
  simp [isPlainQuoted] at hc
  simp [stepQuoted_eq, stepQuoted, hc]

/-- A quoted mark before anything but itself and a brace. -/
theorem step_mark {c : Char} (hc : c = '$' ∨ c = '%') {l : List Char} (hsame : l.head? ≠ some c)
    (hbrace : l.head? ≠ some '{') :
    (Scanner.mk (.quoted :: σ) .code).step c l = .next ⟨.quoted :: σ, .code⟩ := by
  rw [stepQuoted_eq, stepQuoted]
  rcases hc with rfl | rfl <;> simp [hsame, hbrace]

/-- A mark that is doubled is passed over with its pair. -/
theorem step_doubled {c : Char} (hc : c = '$' ∨ c = '%') (l : List Char) :
    (Scanner.mk (.quoted :: σ) .code).step c (c :: l) = .skip ⟨.quoted :: σ, .code⟩ := by
  rw [stepQuoted_eq, stepQuoted]
  rcases hc with rfl | rfl <;> simp

/-- A mark in front of a brace opens a template. -/
theorem step_template {c : Char} (hc : c = '$' ∨ c = '%') (l : List Char) :
    (Scanner.mk (.quoted :: σ) .code).step c ('{' :: l) =
      .skip (inBrackets 0 (.template :: .quoted :: σ)) := by
  rw [stepQuoted_eq, stepQuoted]
  rcases hc with rfl | rfl <;> simp [push, inBrackets]

/-- The brace that ends a template leads back into the string. -/
theorem step_endTemplate (l : List Char) :
    (inBrackets 0 (.template :: .quoted :: σ)).step '}' l =
      .next ⟨.quoted :: σ, .code⟩ := rfl

/-- An escaped character is passed over; a newline is one too. -/
theorem through_escape (c : Char) (t : List Char) :
    (Scanner.mk (.quoted :: σ) .code).through ('\\' :: c :: t) =
      (Scanner.mk (.quoted :: σ) .code).through t := by
  by_cases hc : c = '\n'
  · subst hc
    have hempty : '\n' ∉ ['\\'] := by decide
    calc (Scanner.mk (.quoted :: σ) .code).through ('\\' :: '\n' :: t)
        = (Scanner.mk (.quoted :: σ) .code).thenLines t := through_append_newline hempty _ t
      _ = (Scanner.mk (.quoted :: σ) .code).through t := Outside.thenLines_eq (.of_code rfl) t
  · exact through_skip (by decide) hc fun l => rfl

end Scanner

open Scanner

mutual

/-- The scanner agrees with the lexical structure of code. -/
theorem Code.through_eq {m n : Nat} {t r : List Char} (h : Code m t n r) {σ : List Frame}
    (hσ : σ.head? ≠ some .quoted) :
    (inBrackets m σ).through t = (inBrackets n σ).through r := by
  match h with
  | .done => rfl
  | .plain hc h =>
    rw [through_next (.of_code rfl) fun l _ => step_plainCode hσ m hc l]
    exact h.through_eq hσ
  | .opener hc h =>
    rw [through_next (.of_code rfl) fun l _ => step_opener hσ m hc l]
    exact h.through_eq hσ
  | .closer hc h =>
    rw [through_next (.of_code rfl) fun l _ => step_closer σ _ hc l]
    exact h.through_eq hσ
  | .slash hslash hstar h =>
    rw [through_next (.of_code rfl) fun l hl =>
      step_slash hσ m (fun heq => hslash (hl _ heq)) (fun heq => hstar (hl _ heq))]
    exact h.through_eq hσ
  | .less hless h =>
    rw [through_next (.of_code rfl) fun l hl => step_less hσ m fun heq => hless (hl _ heq)]
    exact h.through_eq hσ
  | .string hq h =>
    rw [through_next (.of_code rfl) fun l _ => step_quote hσ m l, hq.through_eq]
    exact h.through_eq hσ
  | .hash hb h =>
    rw [through_stop (by decide) hb (step_hash hσ m _), Outside.thenLines_eq (.of_code rfl)]
    exact h.through_eq hσ
  | .slashes hb h =>
    rw [← List.cons_append, through_stop (by decide)
      (List.not_mem_cons_of_ne_of_not_mem (by decide) hb) (step_slashes hσ m _),
      Outside.thenLines_eq (.of_code rfl)]
    exact h.through_eq hσ
  | .block hb h =>
    rw [through_skip (by decide) (by decide) (step_block hσ m),
      through_comment hb]
    exact h.through_eq hσ
  | .heredoc hd h =>
    rw [through_heredoc hσ m hd]
    exact h.through_eq hσ

/-- The scanner agrees with the lexical structure of strings. -/
theorem Quoted.through_eq {t r : List Char} (h : Quoted t r) (σ : List Frame) :
    (Scanner.mk (.quoted :: σ) .code).through t = (Scanner.mk σ .code).through r := by
  match h with
  | .close => exact through_next (.of_code rfl) fun l _ => rfl
  | .plain hc h =>
    rw [through_next (.of_code rfl) fun l _ => step_plainQuoted σ hc l]
    exact h.through_eq σ
  | .escape h =>
    rw [through_escape σ]
    exact h.through_eq σ
  | .mark hc hsame hbrace h =>
    rw [through_next (.of_code rfl) fun l hl =>
      step_mark σ hc (fun heq => hsame (hl _ heq)) (fun heq => hbrace (hl _ heq))]
    exact h.through_eq σ
  | .doubled hc h =>
    have hline := ne_newline_of_mark hc
    rw [through_skip hline hline (step_doubled σ hc)]
    exact h.through_eq σ
  | .template hc hcode h =>
    have hhead : (Frame.template :: .quoted :: σ).head? ≠ some .quoted := by simp
    rw [through_skip (ne_newline_of_mark hc) (by decide) (step_template σ hc),
      hcode.through_eq hhead, through_next (.of_code rfl) fun l _ => step_endTemplate σ l]
    exact h.through_eq σ

end

end HclQuery.Layout
