import HclQuery.Proofs.Grammar.Expressions
import HclQuery.Proofs.Layout.Reindent

/-!
# Re-indented expressions

Re-indenting a value only changes the blanks at the ends of its lines.  To the scanner of the layout
these are all blanks of Unicode, and to the grammar only those of ASCII; if no others stand there, a
re-indented expression is spaced differently and is an expression still.

Main definitions:

- {lit}`AsciiLineEnds`: texts with no other blanks than those of ASCII at the ends of their lines.

Main results:

- Theorem {lit}`respaced_reindent`: a re-indented value is spaced differently.
- Theorem {lit}`IsExpression.reindent`: a re-indented expression is an expression.
-/

namespace HclQuery.Grammar

open Text Layout

/-- A line with no other blanks at its ends than those of ASCII. -/
structure AsciiEnds (l : List Char) : Prop where
  front : ∀ c ∈ l.takeWhile isBlank, c.toNat < 128
  back : ∀ c ∈ l.reverse.takeWhile isBlank, c.toNat < 128

/-- A text with no other blanks at the ends of its lines than those of ASCII. -/
def AsciiLineEnds (v : List Char) : Prop :=
  ∀ l ∈ lines v, AsciiEnds l

/-- A text of ASCII has no other blanks at all. -/
theorem asciiLineEnds_of_ascii {v : List Char} (h : ∀ c ∈ v, c.toNat < 128) : AsciiLineEnds v := by
  intro l hl
  constructor
  · intro c hc
    exact h c (mem_of_mem_lines hl ((List.takeWhile_sublist isBlank).mem hc))
  · intro c hc
    have hmem := (List.takeWhile_sublist isBlank).mem hc
    exact h c (mem_of_mem_lines hl (List.mem_reverse.1 hmem))

/-! ## The blanks of a line -/

/-- The blanks of ASCII are those of the grammar. -/
theorem isSpace_of_ascii {c : Char} (hc : isBlank c = true) (hascii : c.toNat < 128) :
    isSpace c = true := by
  have hcase := of_isBlank (p := fun c => decide (128 ≤ c.toNat) || isSpace c)
    (by decide) hc
  rw [Bool.or_eq_true, decide_eq_true_eq] at hcase
  rcases hcase with hge | hspace
  · omega
  · exact hspace

/-- Blanks of ASCII are blanks of the grammar. -/
theorem forall_isSpace_takeWhile {l : List Char}
    (h : ∀ c ∈ l.takeWhile isBlank, c.toNat < 128) :
    ∀ c ∈ l.takeWhile isBlank, isSpace c = true :=
  fun c hc => isSpace_of_ascii (forall_takeWhile isBlank l c hc) (h c hc)

theorem mem_takeWhile_append {p : Char → Bool} {c : Char} {l : List Char}
    (h : c ∈ l.takeWhile p) (m : List Char) : c ∈ (l ++ m).takeWhile p := by
  induction l with
  | nil => cases h
  | cons d l ih =>
    by_cases hd : p d = true
    · rw [List.takeWhile_cons_of_pos hd] at h
      rw [List.cons_append, List.takeWhile_cons_of_pos hd]
      rcases List.mem_cons.1 h with rfl | h
      · exact List.mem_cons_self ..
      · exact List.mem_cons_of_mem _ (ih h)
    · rw [List.takeWhile_cons_of_neg hd] at h
      cases h

/-- A line is what is left without the blanks at its end, and these are blanks of the grammar. -/
theorem exists_trimEnd_spaces {l : List Char}
    (h : ∀ c ∈ l.reverse.takeWhile isBlank, c.toNat < 128) :
    ∃ b, (∀ c ∈ b, isSpace c = true) ∧ l = trimEnd l ++ b := by
  refine ⟨(l.reverse.takeWhile isBlank).reverse, ?_, ?_⟩
  · intro c hc
    exact forall_isSpace_takeWhile h c (List.mem_reverse.1 hc)
  · rw [trimEnd, ← List.reverse_append, List.takeWhile_append_dropWhile, List.reverse_reverse]

/-- A line is its trimmed text between blanks of the grammar. -/
theorem AsciiEnds.exists_trim {l : List Char} (h : AsciiEnds l) :
    ∃ a b, (∀ c ∈ a, isSpace c = true) ∧ (∀ c ∈ b, isSpace c = true) ∧
      l = a ++ (trim l ++ b) := by
  have hsplit : l.takeWhile isBlank ++ trimStart l = l := List.takeWhile_append_dropWhile
  have hback : ∀ c ∈ (trimStart l).reverse.takeWhile isBlank, c.toNat < 128 := by
    intro c hc
    apply h.back c
    rw [← hsplit, List.reverse_append]
    exact mem_takeWhile_append hc _
  rcases exists_trimEnd_spaces hback with ⟨b, hb, hend⟩
  refine ⟨l.takeWhile isBlank, b, forall_isSpace_takeWhile h.front, hb, ?_⟩
  rw [trim, ← hend]
  exact hsplit.symm

/-! ## Line by line -/

/-- Lines that follow the first one, each after a newline. -/
def laterLines (ls : List (List Char)) : List Char :=
  ls.flatMap fun l => '\n' :: l

/-- Lines are the first one and then the later ones. -/
theorem unlines_cons (l : List Char) (ls : List (List Char)) :
    unlines (l :: ls) = l ++ laterLines ls := by
  induction ls generalizing l with
  | nil => exact (List.append_nil l).symm
  | cons m ls ih =>
    rw [unlines_cons_cons, ih]
    rfl

theorem laterLines_cons (l : List Char) (ls : List (List Char)) :
    laterLines (l :: ls) = '\n' :: (l ++ laterLines ls) := rfl

variable {gaps : Prop} {rest rest' t t' : List Char}

/-- Two texts agree up to a place also after the same characters. -/
theorem Respaced.append (h : Respaced gaps rest rest' t t') (v : List Char) :
    Respaced gaps rest rest' (v ++ t) (v ++ t') := by
  induction v with
  | nil => exact h
  | cons c v ih => exact .char c ih

/-- A newline between blanks is a gap. -/
theorem Gap.of_spaces {a b : List Char} (ha : ∀ c ∈ a, isSpace c = true)
    (hb : ∀ c ∈ b, isSpace c = true) : Gap (a ++ '\n' :: b) := by
  refine ⟨?_, List.mem_append_right a (List.mem_cons_self ..)⟩
  intro c hc
  rcases List.mem_append.1 hc with hc | hc
  · exact ha c hc
  · rcases List.mem_cons.1 hc with rfl | hc
    · rfl
    · exact hb c hc

/-- A newline between blanks of the grammar, in front of two texts. -/
theorem Respaced.newline {a b d : List Char} (ha : ∀ c ∈ a, isSpace c = true)
    (hb : ∀ c ∈ b, isSpace c = true) (hd : ∀ c ∈ d, isSpace c = true)
    (h : Respaced True rest rest' t t') :
    Respaced True rest rest' (a ++ '\n' :: (b ++ t)) ('\n' :: (d ++ t')) := by
  have hfirst := Gap.of_spaces ha hb
  have hsecond := Gap.of_spaces (a := []) (List.forall_mem_nil _) hd
  have hgap := Respaced.gap trivial hfirst hsecond h
  rw [List.append_assoc, List.cons_append, List.nil_append, List.cons_append] at hgap
  exact hgap

/-- An indentation is blanks. -/
theorem spaces_indent (depth : Nat) : ∀ c ∈ indent depth, isSpace c = true := by
  intro c hc
  rw [List.eq_of_mem_replicate hc]
  rfl

/-- Blanks that a text ends in although it ends in a visible character are none. -/
theorem eq_nil_of_endsVisible {a b : List Char} (h : EndsVisible (a ++ b))
    (hb : ∀ c ∈ b, isSpace c = true) : b = [] := by
  cases hlast : b.getLast? with
  | none => exact List.getLast?_eq_none_iff.1 hlast
  | some c =>
    have hvisible := h.of_append c hlast
    rw [isBlank_of_isSpace (hb c (List.mem_of_getLast? hlast))] at hvisible
    cases hvisible

/-- The lines after the first, with the blanks `b` that stand in front of them at the end of the
line before: re-indenting moves each of them or keeps it, and cuts these blanks. -/
theorem respaced_continuations (rest : List Char) (hrest' : Separates rest') (depth : Nat)
    (s : Scanner) {b : List Char} {ls : List (List Char)} (hb : ∀ c ∈ b, isSpace c = true)
    (hls : ∀ l ∈ ls, AsciiEnds l) (hends : EndsVisible (b ++ laterLines ls)) :
    Respaced True rest rest' (b ++ (laterLines ls ++ rest))
      (laterLines (continuations depth s ls) ++ rest') := by
  induction ls generalizing b s with
  | nil =>
    have hnil := eq_nil_of_endsVisible (a := []) (by simpa [laterLines] using hends) hb
    rw [hnil]
    exact .stop hrest'
  | cons l ls ih =>
    have htail : ∀ m ∈ ls, AsciiEnds m := fun m hm => hls m (List.mem_cons_of_mem _ hm)
    rw [laterLines_cons, List.append_cons] at hends
    have hends' : EndsVisible (l ++ laterLines ls) := hends.of_append
    rw [continuations, laterLines_cons, laterLines_cons]
    simp only [List.cons_append, List.append_assoc]
    -- A line that is kept is the same in both texts, and no blanks of it are cut.
    rcases (hls l (List.mem_cons_self ..)).exists_trim with ⟨a, e, ha, he, hl⟩
    rcases continuation_cases depth s l with ⟨-, hline⟩ | ⟨-, hempty, hline⟩ | ⟨-, -, hline⟩
    · have hrel := ih (b := []) (s.after l) (List.forall_mem_nil _) htail hends'.of_append
      rw [hline]
      have hnil := List.forall_mem_nil fun c => isSpace c = true
      exact Respaced.newline (b := []) (d := []) hb hnil hnil (hrel.append l)
    · have hspaces : ∀ c ∈ l, isSpace c = true := by
        rw [hempty, List.nil_append] at hl
        intro c hc
        rw [hl] at hc
        rcases List.mem_append.1 hc with hc | hc
        · exact ha c hc
        · exact he c hc
      have hrel := ih (b := []) (s.after l) (List.forall_mem_nil _) htail hends'.of_append
      rw [hline]
      exact Respaced.newline (d := []) hb hspaces (List.forall_mem_nil _) hrel
    · have hends'' : EndsVisible (e ++ laterLines ls) := by
        rw [hl, List.append_assoc, List.append_assoc] at hends'
        exact hends'.of_append.of_append
      have hrel := ih (b := e) (s.after l) he htail hends''
      have hnewline := Respaced.newline hb ha
        (spaces_indent (depth + (s.depth - leadingClosers (trim l)))) (hrel.append (trim l))
      rw [← List.append_assoc (trim l), ← List.append_assoc a, ← hl] at hnewline
      rw [hline, List.append_assoc]
      exact hnewline

/-- A re-indented value is spaced differently. -/
theorem respaced_reindent {v : List Char} (hv : Trimmed v) (hascii : AsciiLineEnds v)
    (rest : List Char) (hrest' : Separates rest') (depth : Nat) :
    Respaced True rest rest' (v ++ rest) (reindent depth v ++ rest') := by
  have hunlines := unlines_lines v
  rw [reindent, hv.trim_eq]
  cases hl : lines v with
  | nil => exact absurd hl (lines_ne_nil v)
  | cons l ls =>
    rw [AsciiLineEnds, hl] at hascii
    rcases exists_trimEnd_spaces (hascii l (List.mem_cons_self ..)).back with ⟨b, hb, hlb⟩
    rw [hl, unlines_cons] at hunlines
    have hends : EndsVisible (b ++ laterLines ls) := by
      have hwhole := hv.ends
      rw [← hunlines, hlb, List.append_assoc] at hwhole
      exact hwhole.of_append
    have hrel := respaced_continuations rest hrest' depth (Scanner.initial.scan l) hb
      (fun m hm => hascii m (List.mem_cons_of_mem _ hm)) hends
    have hfront := hrel.append (trimEnd l)
    rw [← List.append_assoc, ← hlb, ← List.append_assoc, ← List.append_assoc, hunlines] at hfront
    rw [reindentLines, unlines_cons]
    exact hfront

/-- A re-indented expression is an expression. -/
theorem IsExpression.reindent {v : List Char} (h : IsExpression v) (hascii : AsciiLineEnds v)
    (depth : Nat) : IsExpression (reindent depth v) :=
  h.respaced (respaced_reindent h.trimmed hascii ['\n'] (separates_newline []) depth)

/-- An expression on one line is written as it is. -/
theorem IsExpression.reindent_of_single {v : List Char} (h : IsExpression v) (hv : '\n' ∉ v)
    (depth : Nat) : Layout.reindent depth v = v := by
  have htrim := h.trimmed.trim_eq
  rw [Layout.reindent_of_single (by rw [htrim]; exact hv), htrim]

end HclQuery.Grammar
