import HclQuery.Proofs.Grammar.RespacedCode
import HclQuery.Proofs.Grammar.RespacedParts
import HclQuery.Proofs.Grammar.RespacedTrivia
import HclQuery.Proofs.Grammar.States

/-!
# Texts of expressions

An expression that ends in front of a newline ends in front of every blank and every comment after
which the file goes on with an item, and its text may be spaced differently around its own newlines.
Only the end of a heredoc has to be followed by the end of its line.

Main definitions:

- {lit}`IsExpression`: the text of one expression.
- {lit}`EndsExpression`: texts that no expression goes on with.
- {lit}`ClosesHeredoc`: the last token of an expression is the end of a heredoc.

Main results:

- Theorem {lit}`State.run_respaced`: an expression is read of texts that are spaced differently.
- Theorem {lit}`isExpression_of_scan`: what is read as an expression is the text of one.
- Theorem {lit}`IsExpression.scan_append`: the text of an expression is read in front of a newline.
- Theorem {lit}`IsExpression.respaced`: the text of an expression may be spaced differently.
-/

namespace HclQuery.Grammar

open Text

/-- The text of one expression, with nothing to skip in front of it or after it. -/
def IsExpression (v : List Char) : Prop :=
  skipTrivia (v ++ ['\n']) = v ++ ['\n'] ∧ scan (v ++ ['\n']) = .ok ['\n']

/-- A text that no whole expression goes on with. -/
def EndsExpression (t : List Char) : Prop :=
  ∀ s : State, s.complete = true → s.next t = none

/-- A text that no whole expression goes on with that is read from a state on.  An expression that
is a whole file is never inside of anything else. -/
def State.EndsAt (s : State) (t : List Char) : Prop :=
  ∀ s' : State, s'.complete = true → (.file ∈ s.stack → .file ∈ s'.stack) → s'.next t = none

/-- The end of a heredoc is read from a state on, and `rest` is left then. -/
inductive ClosesHeredoc (rest : List Char) : State → List Char → Prop where
  | last {s : State} {t m : List Char} (hm : State.context s.stack = .heredoc m)
    (h : s.lex t = some (.part .finish, rest)) : ClosesHeredoc rest s t
  | next {s s' : State} {t u : List Char} (h : s.next t = some (s', u))
    (hu : ClosesHeredoc rest s' u) : ClosesHeredoc rest s t

/-! ## The end of an expression -/

/-- No expression goes on with a text whose tokens are only words and braces. -/
theorem endsExpression_of_lexCode {t : List Char}
    (h : ∀ accepts k r, lexCode accepts (skipTrivia t) = some (k, r) →
      k = .word ∨ (∃ q, k = .keyword q) ∨ k = .symbol .closeBrace ∨ k = .symbol .openBrace) :
    EndsExpression t := by
  intro s hs
  rcases hnext : s.next t with _ | ⟨s', r⟩
  · rfl
  · rcases State.next_eq_some.1 hnext with ⟨k, hk, hadvance⟩
    rcases s with ⟨mode, st⟩
    rw [State.complete.eq_def] at hs
    split at hs
    · next heq =>
      cases heq
      rcases h _ k r hk with rfl | ⟨q, rfl⟩ | rfl | rfl <;> cases hadvance
    · next heq =>
      cases heq
      cases hadvance
    · cases hs

/-- No expression goes on where there is nothing left to read. -/
theorem endsExpression_of_skipTrivia_nil {t : List Char} (h : skipTrivia t = []) :
    EndsExpression t := by
  apply endsExpression_of_lexCode
  intro accepts k r hk
  rw [h] at hk
  cases hk

/-- No expression goes on after a newline at the end of a text. -/
theorem endsExpression_newline : EndsExpression ['\n'] := by
  apply endsExpression_of_skipTrivia_nil
  rw [skipTrivia.eq_def]
  simp [isSpace, skipTrivia]

/-- A word is an identifier or a keyword. -/
theorem word?_token {accepts : Token → Bool} {t r : List Char} {k : Token}
    (h : word? accepts t = some (k, r)) : k = .word ∨ ∃ q, k = .keyword q := by
  unfold word? at h
  split at h
  · cases h
  · split at h
    · cases h
      exact .inr ⟨_, rfl⟩
    · split at h
      · cases h
        exact .inl rfl
      · rcases Option.map_eq_some_iff.1 h with ⟨q, -, he⟩
        cases he
        exact .inr ⟨q.2, rfl⟩

/-- No expression goes on with a name. -/
theorem endsExpression_of_isNameStart {t u : List Char} {c : Char} (h : skipTrivia t = c :: u)
    (hc : isNameStart c = true) : EndsExpression t := by
  apply endsExpression_of_lexCode
  intro accepts k r hk
  rw [h, lexCode, if_pos hc] at hk
  rcases word?_token hk with rfl | ⟨q, rfl⟩
  · exact .inl rfl
  · exact .inr (.inl ⟨q, rfl⟩)

/-- What begins like no name, number or heredoc is a symbol. -/
theorem lexCode_symbol {accepts : Token → Bool} {c : Char} {t u : List Char} {k : Token}
    (h : lexCode accepts (c :: t) = some (k, u)) (hname : isNameStart c = false)
    (hdigit : isDigit c = false) (hopen : c ≠ '<') :
    ∃ s ∈ spellings, s.1.head? = some c ∧ k = .symbol s.2 ∧ u = (c :: t).drop s.1.length := by
  rw [lexCode, hname, hdigit, if_neg Bool.false_ne_true, if_neg Bool.false_ne_true,
    if_neg fun hheredoc => hopen hheredoc.1] at h
  split at h
  · cases h
  · rcases Option.map_eq_some_iff.1 h with ⟨s, hs, he⟩
    cases he
    have hmem := List.mem_of_find?_eq_some hs
    have hfront := List.find?_some hs
    rw [Bool.and_eq_true, List.isPrefixOf_iff_prefix] at hfront
    rcases hfront with ⟨⟨y, hy⟩, -⟩
    refine ⟨s, hmem, ?_, rfl, rfl⟩
    rcases List.exists_cons_of_ne_nil (spellings_visible s hmem).1 with ⟨d, x, hdx⟩
    rw [hdx] at hy ⊢
    cases hy
    rfl

/-- No expression goes on with a brace or a character that no token begins with. -/
theorem endsExpression_of_symbol {t u : List Char} {c : Char} (h : skipTrivia t = c :: u)
    (hname : isNameStart c = false) (hdigit : isDigit c = false) (hopen : c ≠ '<')
    (hc : ∀ s ∈ spellings, s.1.head? = some c → s.2 = .closeBrace ∨ s.2 = .openBrace) :
    EndsExpression t := by
  apply endsExpression_of_lexCode
  intro accepts k r hk
  rw [h] at hk
  rcases lexCode_symbol hk hname hdigit hopen with ⟨s, hs, hhead, rfl, -⟩
  rcases hc s hs hhead with hclose | hopen
  · exact .inr (.inr (.inl (congrArg Token.symbol hclose)))
  · exact .inr (.inr (.inr (congrArg Token.symbol hopen)))

/-- No expression goes on with a closing brace. -/
theorem endsExpression_of_closeBrace {t u : List Char} (h : skipTrivia t = '}' :: u) :
    EndsExpression t :=
  endsExpression_of_symbol h (by decide) (by decide) (by decide) (by decide)

theorem endsExpression_of_openBrace {t u : List Char} (h : skipTrivia t = '{' :: u) :
    EndsExpression t :=
  endsExpression_of_symbol h (by decide) (by decide) (by decide) (by decide)

/-- What ends every expression ends those that are read from a state on. -/
theorem EndsExpression.endsAt {t : List Char} (h : EndsExpression t) (s : State) : s.EndsAt t :=
  fun s' hs' _ => h s' hs'

namespace State

/-- A file that is one object ends with it. -/
theorem endsAt_of_file {s : State} (hs : .file ∈ s.stack) (t : List Char) : s.EndsAt t := by
  intro s' hs' hfile
  rw [complete.eq_def] at hs'
  split at hs'
  · cases hfile hs
  · rcases hnext : next ⟨.done, _⟩ t with _ | ⟨s'', r⟩
    · rfl
    · rcases next_eq_some.1 hnext with ⟨k, -, hadvance⟩
      cases hadvance
  · cases hs'

/-- What ends the expressions from a state on ends those from each later state on. -/
theorem EndsAt.next {s s' : State} {t u r : List Char} (h : s.EndsAt t)
    (hn : s.next u = some (s', r)) : s'.EndsAt t := by
  rcases next_eq_some.1 hn with ⟨k, -, hadvance⟩
  intro s'' hs'' hfile
  exact h s'' hs'' fun hmem => hfile ((advance_follows hadvance).file hmem)

end State

/-! ## Tokens and whole expressions of texts that are spaced differently -/

variable {gaps : Prop} {rest rest' t t' : List Char}

namespace Respaced

/-- The place is not behind the text. -/
theorem length_le (h : Respaced gaps rest rest' t t') : rest.length ≤ t.length := by
  induction h with
  | stop => exact Nat.le_refl _
  | char c h ih => exact Nat.le_succ_of_le ih
  | gap hgaps hx hx' h ih =>
    rw [List.length_append]
    omega

/-- At the place the second text goes on as it does from there. -/
theorem eq_of_stop (h : Respaced gaps rest rest' t t') (ht : t = rest) : t' = rest' := by
  cases h with
  | stop => rfl
  | char c h =>
    have hle := h.length_le
    rw [← ht, List.length_cons] at hle
    omega
  | gap hgaps hx hx' h =>
    have hle := h.length_le
    rcases hx.exists_cons with ⟨b, y, rfl, -⟩
    rw [← ht] at hle
    simp only [List.cons_append, List.length_cons, List.length_append] at hle
    omega

/-- Two texts that only differ in what follows the place. -/
theorem refl (rest : List Char) (hrest' : Separates rest') (v : List Char) :
    Respaced False rest rest' (v ++ rest) (v ++ rest') := by
  induction v with
  | nil => exact .stop hrest'
  | cons c v ih => exact .char c ih

end Respaced

/-- An unclosed comment is no token. -/
theorem lexCode_unclosed {accepts : Token → Bool} {t : List Char} (h : Unclosed t) :
    lexCode accepts t = none := by
  rcases h with ⟨u, rfl⟩
  have hname : isNameStart '/' = false := by decide
  simp [lexCode, hname, isDigit]

/-- A slash is the division sign. -/
theorem lexCode_slash {accepts : Token → Bool} {t u : List Char} {k : Token}
    (h : lexCode accepts ('/' :: t) = some (k, u)) : k = .symbol .binary ∧ u = t := by
  rcases lexCode_symbol h (by decide) (by decide) (by decide) with ⟨s, hs, hhead, rfl, rfl⟩
  have hspelled : ∀ s ∈ spellings, s.1.head? = some '/' → s = (['/'], .binary) := by decide
  obtain rfl := hspelled s hs hhead
  exact ⟨rfl, rfl⟩

namespace State

/-- A token of which `u` is left is read in both texts: no template goes on at the place, no slash
begins a comment there, and the line ends there if a heredoc does. -/
structure Apart (rest rest' : List Char) (s s' : State) (t u : List Char) : Prop where
  parts : u.length = rest.length → s'.mode ≠ .parts
  slash : s.mode ≠ .parts → skipTrivia t = '/' :: rest → rest'.head? ≠ some '/'
  line : ∀ m, context s.stack = .heredoc m → s.lex t = some (.part .finish, u) →
    EndsLineAt rest rest' u

/-- A token before the place. -/
theorem lex_respaced {s s' : State} {t t' u : List Char} {k : Token} (hs : s.Marked)
    (h : Respaced gaps rest rest' t t') (hk : s.lex t = some (k, u))
    (hadvance : s.advance k = some s') (hu : rest.length ≤ u.length)
    (hapart : Apart rest rest' s s' t u) :
    ∃ u', s.lex t' = some (k, u') ∧ Respaced gaps rest rest' u u' := by
  have hlt : s'.mode = .parts → rest.length < u.length := by
    intro hparts
    rcases Nat.lt_or_ge rest.length u.length with hlt | hge
    · exact hlt
    · exact absurd hparts (hapart.parts (Nat.le_antisymm hge hu))
  by_cases hmode : s.mode = .parts
  · have hlex := hk
    rw [lex, if_pos hmode] at hk
    rcases Option.map_eq_some_iff.1 hk with ⟨⟨p, x⟩, hx, he⟩
    cases he
    have hcontext : ∀ m, context s.stack = .heredoc m → ∀ c ∈ m, isSpace c = false :=
      fun m hm c hc => isSpace_of_visible (visible_of_isMarkerPart (hs m (context_mem hm) c hc))
    have hchunk : p = .chunk → rest.length < x.length := by
      rintro rfl
      rw [advance_of_parts hmode] at hadvance
      cases hadvance
      exact hlt rfl
    have hstop : ∀ m, context s.stack = .heredoc m → p = .finish → EndsLineAt rest rest' x := by
      rintro m hm rfl
      exact hapart.line m hm hlex
    rcases h.part? hcontext hx hu hchunk hstop with ⟨u', hu', hrel⟩
    refine ⟨u', ?_, hrel⟩
    rw [lex, if_pos hmode, hu']
    rfl
  · rw [lex, if_neg hmode] at hk
    have hheredoc : ∀ m, k = .heredoc m → rest.length < u.length :=
      fun m hm => hlt ((advance_follows hadvance).opening m hm)
    have hskip : Respaced gaps rest rest' (skipTrivia t) (skipTrivia t') := by
      rcases h.skipsAlike.trivia (Nat.lt_of_le_of_lt hu (lexCode_length hk)) with
        hrel | hunclosed | hslash
      · exact hrel
      · rw [lexCode_unclosed hunclosed] at hk
        cases hk
      · exact absurd hslash.2 (hapart.slash hmode hslash.1)
    rcases hskip.lexCode hk hu hheredoc (hapart.slash hmode) with ⟨u', hu', hrel⟩
    refine ⟨u', ?_, hrel⟩
    rw [lex, if_neg hmode]
    exact hu'

/-- The effect of a token before the place. -/
theorem next_respaced {s s' : State} {t t' u : List Char} (hs : s.Marked)
    (h : Respaced gaps rest rest' t t') (hn : s.next t = some (s', u))
    (hu : rest.length ≤ u.length) (hapart : Apart rest rest' s s' t u) :
    ∃ u', s.next t' = some (s', u') ∧ Respaced gaps rest rest' u u' := by
  rcases next_eq_some.1 hn with ⟨k, hk, hadvance⟩
  rcases lex_respaced hs h hk hadvance hu hapart with ⟨u', hk', hrel⟩
  exact ⟨u', next_eq_some.2 ⟨k, hk', hadvance⟩, hrel⟩

/-- A run goes on from each state that it comes to. -/
theorem run_of_next {s s' : State} {t u : List Char} (h : s.next t = some (s', u)) :
    s.run t = s'.run u := by
  rw [run]
  split
  · next heq =>
    rw [h] at heq
    cases heq
    rfl
  · next heq =>
    rw [h] at heq
    cases heq

/-- A whole expression that does not go on is the end of a run. -/
theorem run_of_complete {s : State} {t : List Char} (hs : s.complete = true)
    (h : s.next t = none) : s.run t = .ok t := by
  rw [run]
  split
  · next heq =>
    rw [h] at heq
    cases heq
  · rw [if_pos hs]

/-- A state in which the whole text is left is the end of the expression. -/
theorem complete_of_run {s : State} {t r : List Char} (h : s.run t = .ok r)
    (hlength : t.length = r.length) : s.complete = true := by
  rcases hn : s.next t with _ | ⟨s', u⟩
  · rw [run] at h
    split at h
    · next heq =>
      rw [hn] at heq
      cases heq
    · split at h
      · next hcomplete => exact hcomplete
      · cases h
  · have hlt := next_length hn
    rw [run_of_next hn] at h
    have hle := run_length_le h
    omega

/-- An expression ends in a visible character. -/
theorem run_ends {s : State} {t r : List Char} (hs : s.Marked) (hrun : s.run t = .ok r)
    (hne : t ≠ r) : ∃ a c, t = a ++ c :: r ∧ isBlank c = false := by
  fun_induction run s t with
  | case1 s t s' u hn ih =>
    by_cases hu : u = r
    · subst hu
      exact next_ends hs hn (complete_of_run hrun rfl)
    · rcases ih (next_marked hs hn) hrun hu with ⟨a, c, rfl, hc⟩
      rcases next_suffix hn with ⟨b, rfl⟩
      exact ⟨b ++ a, c, (List.append_assoc b a (c :: r)).symm, hc⟩
  | case2 s t =>
    obtain rfl : t = r := by simpa using hrun
    exact absurd rfl hne
  | case3 => cases hrun

/-- A token of an expression that ends at the place or after it is read in both texts. -/
theorem apart_of_run {s s' : State} {t u r : List Char} (hs : s.Marked)
    (hn : s.next t = some (s', u)) (hrun : s'.run u = .ok r) (hr : rest.length ≤ r.length)
    (hline : ClosesHeredoc r s t → EndsLineAt rest rest' r) : Apart rest rest' s s' t u := by
  rcases next_eq_some.1 hn with ⟨k, hk, hadvance⟩
  have hru := run_length_le hrun
  have hcomplete : u.length = rest.length → s'.complete = true :=
    fun hu => complete_of_run hrun (by omega)
  constructor
  · intro hu hparts
    have hdone := hcomplete hu
    rcases s' with ⟨mode, st⟩
    obtain rfl : mode = .parts := hparts
    cases hdone
  · -- No expression ends in a division sign, so there is none in front of the place.
    intro hmode hslash
    rw [lex, if_neg hmode, hslash] at hk
    rcases lexCode_slash hk with ⟨rfl, rfl⟩
    have hdone := hcomplete rfl
    rw [not_complete_of_binary hadvance] at hdone
    cases hdone
  · -- Only the end of the expression may be followed by nothing but blanks.
    intro m hm hfinish a hua ha
    by_cases heq : u = r
    · subst heq
      exact hline (.last hm hfinish) a hua ha
    · rcases run_ends (next_marked hs hn) hrun heq with ⟨b, c, hvisible, hc⟩
      rcases List.suffix_of_suffix_length_le ⟨a, hua.symm⟩ (run_suffix hrun) hr with ⟨w, rfl⟩
      have hac : a = b ++ c :: w := by
        rw [hua, ← List.cons_append, ← List.append_assoc] at hvisible
        exact List.append_cancel_right hvisible
      have hspace := ha c (hac ▸ List.mem_append_right b (List.mem_cons_self ..))
      rw [isLineSpace, Bool.and_eq_true] at hspace
      rw [isBlank_of_isSpace hspace.1] at hc
      cases hc

/-- An expression that ends at the place or after it is read of texts that are spaced
differently. -/
theorem run_respaced {s : State} {r : List Char} (hs : s.Marked)
    (h : Respaced gaps rest rest' t t') (hrun : s.run t = .ok r) (hr : rest.length ≤ r.length)
    (hends : ∀ r', Respaced gaps rest rest' r r' → s.EndsAt r')
    (hline : ClosesHeredoc r s t → EndsLineAt rest rest' r) :
    ∃ r', s.run t' = .ok r' ∧ Respaced gaps rest rest' r r' := by
  fun_induction run s t generalizing t' with
  | case1 s t s' u hn ih =>
    have hu := Nat.le_trans hr (run_length_le hrun)
    rcases next_respaced hs h hn hu (apart_of_run hs hn hrun hr hline) with ⟨u', hn', hrel⟩
    rw [run_of_next hn']
    exact ih (next_marked hs hn) hrel hrun (fun r' hr' => (hends r' hr').next hn)
      fun hu => hline (.next hn hu)
  | case2 s t hn hcomplete =>
    obtain rfl : t = r := by simpa using hrun
    exact ⟨t', run_of_complete hcomplete (hends t' h s hcomplete id), h⟩
  | case3 => cases hrun

/-- An expression that ends at the place. -/
theorem run_respaced_stop {s : State} (hs : s.Marked) (h : Respaced gaps rest rest' t t')
    (hrun : s.run t = .ok rest) (hends : EndsExpression rest')
    (hline : ClosesHeredoc rest s t → EndsLine rest') : s.run t' = .ok rest' := by
  have hends' : ∀ r', Respaced gaps rest rest' rest r' → s.EndsAt r' := by
    intro r' hr'
    rw [hr'.eq_of_stop rfl]
    exact hends.endsAt s
  rcases run_respaced hs h hrun (Nat.le_refl _) hends' fun hcloses _ _ _ => hline hcloses with
    ⟨r', hrun', hr'⟩
  rw [hrun', hr'.eq_of_stop rfl]

end State

/-! ## The text of an expression -/

/-- Before an operand, no heredoc is open. -/
theorem marked_initial : State.Marked ⟨.operand, []⟩ := by
  intro m hm
  cases hm

/-- In an object that is a whole file, no heredoc is open. -/
theorem marked_object : State.Marked ⟨.again, [.key, .file]⟩ := by
  intro m hm
  simp at hm

/-- An expression begins with a visible character that begins no comment. -/
theorem scan_front {t r : List Char} (ht : skipTrivia t = t) (h : scan t = .ok r) :
    ∃ c u, t = c :: u ∧ isBlank c = false ∧ c ≠ '#' ∧ c ≠ '/' := by
  have hlt := scan_length h
  rw [scan] at h
  rcases hn : State.next ⟨.operand, []⟩ t with _ | ⟨s', r'⟩
  · rw [State.run] at h
    split at h
    · next heq =>
      rw [hn] at heq
      cases heq
    · cases h
  · rcases State.next_eq_some.1 hn with ⟨k, hk, hadvance⟩
    have hlex : lexCode (fun k => (State.advance ⟨.operand, []⟩ k).isSome) (skipTrivia t) =
        some (k, r') := hk
    rw [ht] at hlex
    cases t with
    | nil => cases hlex
    | cons c u =>
      refine ⟨c, u, rfl, ?_, ?_, ?_⟩
      · rcases lexCode_takes hlex with ⟨⟨a, hne, ha, happ⟩, -⟩ | ⟨m, v, -, hv, -⟩
        · rcases List.exists_cons_of_ne_nil hne with ⟨d, a, rfl⟩
          cases happ
          exact ha c (List.mem_cons_self ..)
        · cases hv
          rfl
      · rintro rfl
        have hle := skipLine_length_le u
        have hskip : skipTrivia ('#' :: u) = skipLine u := by
          rw [skipTrivia.eq_def]
          rfl
        rw [← hskip, ht, List.length_cons] at hle
        omega
      · rintro rfl
        rcases lexCode_slash hlex with ⟨rfl, -⟩
        cases hadvance

/-- What begins with neither a blank nor a comment is not skipped. -/
theorem skipTrivia_cons {c : Char} (hspace : isSpace c = false) (hhash : c ≠ '#')
    (hslash : c ≠ '/') (t : List Char) : skipTrivia (c :: t) = c :: t := by
  rw [skipTrivia.eq_def]
  simp [hspace, hhash, hslash]

/-- What is read as an expression is the text of one. -/
theorem isExpression_of_scan {v : List Char} (hv : skipTrivia (v ++ rest) = v ++ rest)
    (h : scan (v ++ rest) = .ok rest) : IsExpression v := by
  have hne : v ≠ [] := by
    rintro rfl
    have hlt := scan_length h
    rw [List.nil_append] at hlt
    omega
  rcases List.exists_cons_of_ne_nil hne with ⟨d, w, rfl⟩
  rcases scan_front hv h with ⟨c, u, hcu, hc, hhash, hslash⟩
  cases hcu
  refine ⟨skipTrivia_cons (isSpace_of_visible hc) hhash hslash _, ?_⟩
  exact State.run_respaced_stop marked_initial (.refl rest (separates_newline []) (d :: w)) h
    endsExpression_newline fun _ => endsLine_newline []

namespace IsExpression

variable {v v' : List Char}

/-- An expression begins with a visible character that begins no comment. -/
theorem front (h : IsExpression v) :
    ∃ c u, v = c :: u ∧ isBlank c = false ∧ c ≠ '#' ∧ c ≠ '/' := by
  rcases scan_front h.1 h.2 with ⟨c, u, hcu, hc, hhash, hslash⟩
  cases v with
  | nil =>
    cases hcu
    cases hc
  | cons d v =>
    cases hcu
    exact ⟨c, v, rfl, hc, hhash, hslash⟩

/-- In front of an expression there is nothing to skip. -/
theorem skipTrivia_append (h : IsExpression v) (t : List Char) :
    skipTrivia (v ++ t) = v ++ t := by
  rcases h.front with ⟨c, u, rfl, hc, hhash, hslash⟩
  exact skipTrivia_cons (isSpace_of_visible hc) hhash hslash _

/-- The text of an expression is read in front of a blank or a comment. -/
theorem scan_separated (h : IsExpression v) (hrest' : Separates rest')
    (hends : EndsExpression rest')
    (hline : ClosesHeredoc ['\n'] ⟨.operand, []⟩ (v ++ ['\n']) → EndsLine rest') :
    scan (v ++ rest') = .ok rest' :=
  State.run_respaced_stop marked_initial (.refl ['\n'] hrest' v) h.2 hends hline

/-- The text of an expression is read in front of a newline. -/
theorem scan_append (h : IsExpression v) (hends : EndsExpression ('\n' :: rest')) :
    scan (v ++ '\n' :: rest') = .ok ('\n' :: rest') :=
  h.scan_separated (separates_newline rest') hends fun _ => endsLine_newline rest'

/-- The text of an expression has visible characters at its ends. -/
theorem trimmed (h : IsExpression v) : Trimmed v := by
  rcases h.front with ⟨c, u, hv, hc, -⟩
  constructor
  · intro d hd
    rw [hv] at hd
    cases hd
    exact hc
  · intro d hd
    have hne : v ++ ['\n'] ≠ ['\n'] := by
      rw [hv]
      simp
    rcases State.run_ends marked_initial h.2 hne with ⟨a, e, hae, he⟩
    have hlast : v = a ++ [e] := by
      rw [List.append_cons a] at hae
      exact List.append_cancel_right hae
    rw [hlast, List.getLast?_concat] at hd
    cases hd
    exact he

/-- The text of an expression may be spaced differently. -/
theorem respaced (h : IsExpression v)
    (hv : Respaced True ['\n'] ['\n'] (v ++ ['\n']) (v' ++ ['\n'])) : IsExpression v' := by
  rcases h.front with ⟨c, u, rfl, hc, hhash, hslash⟩
  have hfront : ∃ u', v' ++ ['\n'] = c :: u' := by
    rcases hv.of_cons (isSpace_of_visible hc) with ⟨u', hu', -⟩ | ⟨hstop, -⟩
    · exact ⟨u', hu'⟩
    · have hlength := congrArg List.length hstop
      simp at hlength
  refine ⟨?_, State.run_respaced_stop marked_initial hv h.2 endsExpression_newline
    fun _ => endsLine_newline []⟩
  rcases hfront with ⟨u', hu'⟩
  rw [hu']
  exact skipTrivia_cons (isSpace_of_visible hc) hhash hslash u'

end IsExpression

end HclQuery.Grammar
