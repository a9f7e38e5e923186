import HclQuery.Proofs.Grammar.Reindented
import HclQuery.Text.Extent

/-!
# Quoted strings of expressions

What is seen of the quoted strings of an expression while it is read: where each opens and closes,
the characters in it as they are written, and where sequences stand among them.  Texts that are
spaced differently have the same quoted strings, but for the blanks around the newlines inside.

Main definitions:

- {lit}`Mark`: what is seen of quoted strings.
- {lit}`quoted`: what is seen of the quoted strings of an expression.
- {lit}`Alike`: quoted strings that only differ in gaps.

Main results:

- Theorem {lit}`Respaced.partMarks`: a part of a quoted string is seen alike in both texts.
- Theorem {lit}`State.quotes_alike`: so are all the quoted strings that are left.
- Theorem {lit}`IsExpression.quoted_reindent`: re-indenting an expression keeps its quoted strings
  but for the blanks around newlines.
-/

namespace HclQuery.Grammar

open Text Layout

/-! ## What is seen of quoted strings -/

/-- What is seen of quoted strings. -/
inductive Mark where
  /-- The quote that opens one. -/
  | opened
  /-- A character in one, as it is written. -/
  | char (c : Char)
  /-- The opening of a sequence in one. -/
  | sequence
  /-- The quote that closes one. -/
  | closed
  deriving DecidableEq, Repr

/-- What is seen of a part of a quoted string.  The blanks in front of it belong to the string. -/
def partMarks (p : Part) (t u : List Char) : List Mark :=
  match p with
  | .chunk => (consumed t u).map .char
  | .interpolation | .directive => (t.takeWhile isSpace).map .char ++ [.sequence]
  | .finish => (t.takeWhile isSpace).map .char ++ [.closed]

/-- What is seen of a token. -/
def tokenMarks (st : List Frame) (k : Token) (t u : List Char) : List Mark :=
  match k with
  | .symbol .quote => [.opened]
  | .part p => if State.context st = .quoted then partMarks p t u else []
  | _ => []

/-- What is seen of the quoted strings of the text that is left. -/
def State.quotes (s : State) (t : List Char) : List Mark :=
  match _h : s.lex t with
  | none => []
  | some (k, u) =>
    match s.advance k with
    | none => []
    | some s' => tokenMarks s.stack k t u ++ s'.quotes u
termination_by t.length
decreasing_by exact State.lex_length _h

/-- What is seen of the quoted strings of an expression. -/
def quoted (v : List Char) : List Mark :=
  State.quotes ⟨.operand, []⟩ (v ++ ['\n'])

-- The string in the sequence is seen as well, the code around it is not.
example : quoted "\"a$\x7bf(\"b\")\x7d\"".toList =
    [.opened, .char 'a', .sequence, .opened, .char 'b', .closed, .closed] := by
  decide +kernel

namespace State

/-- What is seen of a text is what is seen of its first token, and then of what is left. -/
theorem quotes_of_lex {s s' : State} {t u : List Char} {k : Token} (hk : s.lex t = some (k, u))
    (hadvance : s.advance k = some s') :
    s.quotes t = tokenMarks s.stack k t u ++ s'.quotes u := by
  rw [quotes]
  split
  · next heq =>
    rw [hk] at heq
    cases heq
  · next heq =>
    rw [hk] at heq
    cases heq
    rw [hadvance]

/-- Nothing is seen of a text that the grammar cannot go on with. -/
theorem quotes_of_next_eq_none {s : State} {t : List Char} (h : s.next t = none) :
    s.quotes t = [] := by
  rw [quotes]
  split
  · rfl
  · next k u hk =>
    split
    · rfl
    · next s' hadvance =>
      rw [next_eq_some.2 ⟨k, hk, hadvance⟩] at h
      cases h

end State

/-! ## Quoted strings that are alike -/

/-- Quoted strings that only differ in gaps. -/
inductive Alike : List Mark → List Mark → Prop where
  | nil : Alike [] []
  | mark (m : Mark) {ms ms' : List Mark} (h : Alike ms ms') : Alike (m :: ms) (m :: ms')
  | gap {x x' : List Char} {ms ms' : List Mark} (hx : Gap x) (hx' : Gap x') (h : Alike ms ms') :
    Alike (x.map .char ++ ms) (x'.map .char ++ ms')

namespace Alike

variable {ms ms' : List Mark}

/-- Strings that are alike are alike after the same beginning. -/
theorem append (h : Alike ms ms') (l : List Mark) : Alike (l ++ ms) (l ++ ms') := by
  induction l with
  | nil => exact h
  | cons m l ih => exact .mark m ih

/-- Quoted strings without newlines that are alike are the same. -/
theorem eq_of_not_mem (h : Alike ms ms') (hms : Mark.char '\n' ∉ ms) : ms' = ms := by
  induction h with
  | nil => rfl
  | mark m h ih => rw [ih fun hmem => hms (List.mem_cons_of_mem _ hmem)]
  | gap hx hx' h ih =>
    exact absurd (List.mem_append_left _ (List.mem_map_of_mem hx.newline)) hms

end Alike

/-! ## What a part of a quoted string takes -/

variable {gaps : Prop} {rest rest' t t' u u' : List Char}

/-- Blanks in front of a text and what was taken after them. -/
theorem consumed_of_dropWhile {p : Char → Bool} {a : List Char}
    (h : t.dropWhile p = a ++ u) : consumed t u = t.takeWhile p ++ a := by
  have happ := List.takeWhile_append_dropWhile (p := p) (l := t)
  rw [h, ← List.append_assoc] at happ
  have hconsumed := consumed_append (t.takeWhile p ++ a) u
  rwa [happ] at hconsumed

/-- What was taken off the front of a text holds no blanks. -/
def TakesSolid (t u : List Char) : Prop :=
  ∃ a, (∀ c ∈ a, isSpace c = false) ∧ t = a ++ u

theorem TakesSolid.refl (t : List Char) : TakesSolid t t :=
  ⟨[], List.forall_mem_nil _, rfl⟩

theorem TakesSolid.cons {c : Char} (hc : isSpace c = false) (h : TakesSolid t u) :
    TakesSolid (c :: t) u := by
  rcases h with ⟨a, ha, rfl⟩
  exact ⟨c :: a, List.forall_mem_cons.2 ⟨hc, ha⟩, rfl⟩

/-- An escape holds no blanks. -/
theorem escape?_takesSolid (h : escape? t = some u) : TakesSolid t u := by
  have hhex : ∀ {n : Nat} {t u : List Char}, hexDigits? n t = some u → TakesSolid t u := by
    intro n t u h
    unfold hexDigits? at h
    split at h
    · next hall =>
      cases h
      exact ⟨t.take n, fun c hc => isSpace_of_isHexDigit (List.all_eq_true.1 hall.2 c hc),
        (List.take_append_drop n t).symm⟩
    · cases h
  unfold escape? at h
  split at h
  · cases h
  next c v =>
  split at h
  · next hc =>
    cases h
    refine .cons ?_ (.refl _)
    rcases hc with rfl | rfl | rfl | rfl | rfl <;> rfl
  split at h
  · next hc =>
    exact .cons (by rw [hc]; rfl) (hhex h)
  split at h
  · next hc =>
    exact .cons (by rw [hc]; rfl) (hhex h)
  · cases h

/-- A marker holds no blanks. -/
theorem marker_takesSolid {c : Char} (hc : isSpace c = false) (sequence : Part) (t : List Char) :
    TakesSolid t (marker c sequence t).2 := by
  unfold marker
  split
  · exact .refl []
  next d v =>
  split
  · next hd =>
    exact .cons (by rw [hd]; rfl) (.refl v)
  split
  · next hd =>
    refine .cons (by rw [hd]; exact hc) ?_
    split
    · next hbrace =>
      rcases List.head?_eq_some_iff.1 hbrace with ⟨w, rfl⟩
      exact .cons rfl (.refl w)
    · exact .refl v
  · exact .refl (d :: v)

/-- A part of a quoted string takes no blanks but those in front of it. -/
theorem part?_takesSolid {sequences ending : Bool} {p : Part}
    (h : part? .quoted sequences ending t = some (p, u)) :
    TakesSolid (t.dropWhile isSpace) u := by
  unfold part? at h
  split at h
  · cases h
  next c v hv =>
  have hc : isSpace c = false := by
    rcases exists_cons_dropWhile (p := isSpace) (t := t) (by simp [hv]) with ⟨d, w, hdw, hd⟩
    rw [hv] at hdw
    cases hdw
    exact hd
  rw [hv]
  split at h
  · cases h
  split at h
  · cases h
    exact .cons hc (.refl _)
  split at h
  · have hmarker := marker_takesSolid hc .interpolation v
    rw [Option.some.inj h] at hmarker
    exact .cons hc hmarker
  split at h
  · have hmarker := marker_takesSolid hc .directive v
    rw [Option.some.inj h] at hmarker
    exact .cons hc hmarker
  simp only at h
  split at h
  · rcases Option.map_eq_some_iff.1 h with ⟨w, hw, he⟩
    cases he
    exact .cons hc (escape?_takesSolid hw)
  · cases h
    exact .cons hc (.refl _)

/-! ## Parts of quoted strings in texts that are spaced differently -/

theorem Gap.cons {c : Char} {x : List Char} (hc : isSpace c = true) (hx : Gap x) :
    Gap (c :: x) :=
  ⟨List.forall_mem_cons.2 ⟨hc, hx.spaces⟩, List.mem_cons_of_mem _ hx.newline⟩

/-- A gap and the blanks after it. -/
theorem Gap.append_takeWhile {x : List Char} (hx : Gap x) (t : List Char) :
    Gap (x ++ t.takeWhile isSpace) := by
  refine ⟨fun c hc => ?_, List.mem_append_left _ hx.newline⟩
  rcases List.mem_append.1 hc with hc | hc
  · exact hx.spaces c hc
  · exact forall_takeWhile isSpace t c hc

namespace Respaced

/-- The blanks in front are the same, or gaps. -/
theorem blanks (h : Respaced gaps rest rest' t t')
    (hrest : rest.length < (t.dropWhile isSpace).length) :
    t'.takeWhile isSpace = t.takeWhile isSpace ∨
      Gap (t.takeWhile isSpace) ∧ Gap (t'.takeWhile isSpace) := by
  induction h with
  | stop =>
    have hle := (List.dropWhile_suffix isSpace (l := rest)).length_le
    omega
  | char c h ih =>
    by_cases hc : isSpace c = true
    · rw [List.dropWhile_cons_of_pos hc] at hrest
      rw [List.takeWhile_cons_of_pos hc, List.takeWhile_cons_of_pos hc]
      rcases ih hrest with heq | ⟨hgap, hgap'⟩
      · exact .inl (by rw [heq])
      · exact .inr ⟨hgap.cons hc, hgap'.cons hc⟩
    · rw [List.takeWhile_cons_of_neg hc, List.takeWhile_cons_of_neg hc]
      exact .inl rfl
  | @gap x x' t t' hgaps hx hx' h ih =>
    rw [List.takeWhile_append_of_pos hx.spaces, List.takeWhile_append_of_pos hx'.spaces]
    exact .inr ⟨hx.append_takeWhile t, hx'.append_takeWhile t'⟩

/-- How many characters of two texts are no blanks. -/
theorem countP_add (h : Respaced gaps rest rest' t t') :
    t.countP (!isSpace ·) + rest'.countP (!isSpace ·) =
      t'.countP (!isSpace ·) + rest.countP (!isSpace ·) := by
  have hgap : ∀ {x : List Char}, Gap x → x.countP (!isSpace ·) = 0 := by
    intro x hx
    rw [List.countP_eq_zero]
    intro c hc
    simp [hx.spaces c hc]
  induction h with
  | stop => exact Nat.add_comm ..
  | char c h ih =>
    rw [List.countP_cons, List.countP_cons]
    omega
  | gap hgaps hx hx' h ih =>
    rw [List.countP_append, List.countP_append, hgap hx, hgap hx']
    omega

/-- What is taken without blanks is the same in both texts, if what is left is spaced
differently. -/
theorem eq_of_solid {a a' : List Char} (ha : ∀ c ∈ a, isSpace c = false)
    (ha' : ∀ c ∈ a', isSpace c = false) (h : Respaced gaps rest rest' (a ++ u) (a' ++ u'))
    (hu : Respaced gaps rest rest' u u') : a' = a := by
  rcases h.of_append ha hu.length_le with ⟨v', hv', hv⟩
  have hlength : ∀ {b : List Char}, (∀ c ∈ b, isSpace c = false) →
      b.countP (!isSpace ·) = b.length := by
    intro b hb
    rw [List.countP_eq_length]
    intro c hc
    simp [hb c hc]
  have hcount := congrArg (List.countP (!isSpace ·)) hv'
  have hleft := hu.countP_add
  have hleft' := hv.countP_add
  rw [List.countP_append, List.countP_append, hlength ha, hlength ha'] at hcount
  exact (List.append_inj hv' (by omega)).1

/-- What is seen of the blanks in front is alike. -/
theorem blankMarks (h : Respaced gaps rest rest' t t')
    (hrest : rest.length < (t.dropWhile isSpace).length) {ms ms' : List Mark}
    (hms : Alike ms ms') :
    Alike ((t.takeWhile isSpace).map .char ++ ms) ((t'.takeWhile isSpace).map .char ++ ms') := by
  rcases h.blanks hrest with heq | ⟨hgap, hgap'⟩
  · rw [heq]
    exact hms.append _
  · exact .gap hgap hgap' hms

/-- A part of a quoted string is seen alike in both texts. -/
theorem partMarks {sequences ending : Bool} {p : Part} (h : Respaced gaps rest rest' t t')
    (hp : Grammar.part? .quoted sequences ending t = some (p, u))
    (hp' : Grammar.part? .quoted sequences ending t' = some (p, u'))
    (hu : Respaced gaps rest rest' u u') (hchunk : p = .chunk → rest.length < u.length)
    {ms ms' : List Mark} (hms : Alike ms ms') :
    Alike (Grammar.partMarks p t u ++ ms) (Grammar.partMarks p t' u' ++ ms') := by
  have hlength := lt_of_part? hp hu.length_le hchunk
  cases p with
  | chunk =>
    rcases part?_takesSolid hp with ⟨a, ha, hta⟩
    rcases part?_takesSolid hp' with ⟨a', ha', hta'⟩
    have hsolid := (h.spaces hlength).1
    rw [hta, hta'] at hsolid
    obtain rfl := eq_of_solid ha ha' hsolid hu
    rw [Grammar.partMarks, Grammar.partMarks, consumed_of_dropWhile hta,
      consumed_of_dropWhile hta', List.map_append, List.map_append, List.append_assoc,
      List.append_assoc]
    exact h.blankMarks hlength (hms.append _)
  | interpolation | directive =>
    rw [Grammar.partMarks, Grammar.partMarks, List.append_assoc, List.append_assoc]
    exact h.blankMarks hlength (.mark .sequence hms)
  | finish =>
    rw [Grammar.partMarks, Grammar.partMarks, List.append_assoc, List.append_assoc]
    exact h.blankMarks hlength (.mark .closed hms)

end Respaced

/-! ## Quoted strings of texts that are spaced differently -/

/-- A token of code is no part of a template. -/
theorem lexCode_ne_part {accepts : Token → Bool} {t r : List Char} (p : Part) :
    lexCode accepts t ≠ some (.part p, r) := by
  intro h
  unfold lexCode at h
  split at h
  · cases h
  split at h
  · rcases word?_token h with hword | ⟨q, hword⟩
    · cases hword
    · cases hword
  split at h
  · unfold number? at h
    split at h
    · rcases Option.map_eq_some_iff.1 h with ⟨x, -, he⟩
      cases he
    split at h
    · rcases Option.map_eq_some_iff.1 h with ⟨x, -, he⟩
      cases he
    · cases h
  split at h
  · rcases Option.map_eq_some_iff.1 h with ⟨x, -, he⟩
    cases he
  split at h
  · cases h
  · rcases Option.map_eq_some_iff.1 h with ⟨x, -, he⟩
    cases he

namespace State

/-- A token is seen alike in both texts. -/
theorem tokenMarks_alike {s s' : State} {k : Token} (h : Respaced gaps rest rest' t t')
    (hk : s.lex t = some (k, u)) (hk' : s.lex t' = some (k, u'))
    (hadvance : s.advance k = some s') (hu : Respaced gaps rest rest' u u')
    (hapart : Apart rest rest' s s' t u) {ms ms' : List Mark}
    (hms : Alike ms ms') :
    Alike (tokenMarks s.stack k t u ++ ms) (tokenMarks s.stack k t' u' ++ ms') := by
  cases k with
  | part p =>
    have hmode : s.mode = .parts := by
      by_contra hmode
      rw [lex, if_neg hmode] at hk
      exact lexCode_ne_part p hk
    rw [lex, if_pos hmode] at hk hk'
    rcases Option.map_eq_some_iff.1 hk with ⟨⟨q, x⟩, hp, he⟩
    obtain ⟨rfl, rfl⟩ : p = q ∧ u = x := by simpa [eq_comm] using he
    rcases Option.map_eq_some_iff.1 hk' with ⟨⟨q, x⟩, hp', he'⟩
    obtain ⟨rfl, rfl⟩ : p = q ∧ u' = x := by simpa [eq_comm] using he'
    have hchunk : p = .chunk → rest.length < u.length := by
      rintro rfl
      refine Nat.lt_of_le_of_ne hu.length_le fun hlength => hapart.parts hlength.symm ?_
      rw [advance_of_parts hmode] at hadvance
      cases hadvance
      rfl
    simp only [tokenMarks]
    split
    · next hcontext =>
      rw [hcontext] at hp hp'
      exact h.partMarks hp hp' hu hchunk hms
    · exact hms
  | symbol q => cases q <;> exact hms.append _
  | word | keyword | numeral | digits | heredoc => exact hms

/-- Quoted strings of texts that are spaced differently are alike. -/
theorem quotes_alike {s : State} (hs : s.Marked) (h : Respaced gaps rest rest' t t')
    (hrun : s.run t = .ok rest) (hends : EndsExpression rest')
    (hline : ClosesHeredoc rest s t → EndsLine rest') :
    Alike (s.quotes t) (s.quotes t') := by
  fun_induction run s t generalizing t' with
  | case1 s t s' u hn ih =>
    rcases next_eq_some.1 hn with ⟨k, hk, hadvance⟩
    have hapart : Apart rest rest' s s' t u :=
      apart_of_run hs hn hrun (Nat.le_refl _) fun hcloses _ _ _ => hline hcloses
    rcases lex_respaced hs h hk hadvance (run_length_le hrun) hapart with ⟨u', hk', hrel⟩
    rw [quotes_of_lex hk hadvance, quotes_of_lex hk' hadvance]
    exact tokenMarks_alike h hk hk' hadvance hrel hapart
      (ih (next_marked hs hn) hrel hrun fun hu => hline (.next hn hu))
  | case2 s t hn hcomplete =>
    obtain rfl : t = rest := by simpa using hrun
    rw [h.eq_of_stop rfl, quotes_of_next_eq_none hn, quotes_of_next_eq_none (hends s hcomplete)]
    exact .nil
  | case3 => cases hrun

end State

/-- Re-indenting an expression keeps its quoted strings but for the blanks around the newlines in
them. -/
theorem IsExpression.quoted_reindent {v : List Char} (h : IsExpression v)
    (hascii : AsciiLineEnds v) (depth : Nat) :
    Alike (quoted v) (quoted (Layout.reindent depth v)) :=
  State.quotes_alike marked_initial
    (respaced_reindent h.trimmed hascii ['\n'] (separates_newline []) depth) h.2
    endsExpression_newline fun _ => endsLine_newline []

end HclQuery.Grammar
