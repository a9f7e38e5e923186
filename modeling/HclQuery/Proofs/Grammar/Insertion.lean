import HclQuery.Proofs.Configuration
import HclQuery.Proofs.Grammar.Continued

/-!
# Blanks and comments between tokens

Blanks and complete comments may be put between any two tokens that no expression holds both of: the
text is still accepted and has the same tree.  After a heredoc the end of its line has to come
first.  A file that is one object has no items, so there the places are those between the tokens of
its code, and a comment that begins with a slash may not follow a division sign at once.

A place is given by the text before it and the text after it.

Main definitions:

- {lit}`InLabels`, {lit}`InHeader`: places after the name that begins an item.
- {lit}`Between`: places between tokens outside of expressions.
- {lit}`InCode`: places between tokens of an expression.
- {lit}`InFile`: places between tokens of a file.

Main results:

- Theorem {lit}`Between.steps_insert`: the steps do not change.
- Theorem {lit}`InCode.run_insert`: an object ends at the same token.
- Theorem {lit}`parse_insert`: the tree does not change.
- Theorem {lit}`toDocument_insert`: the document does not change.
- Theorem {lit}`not_toDocument_insert`: not every place between tokens takes every comment.
-/

namespace HclQuery.Grammar

open Text

/-! ## Places -/

/-- Places among the labels of a block, in front of its brace. -/
inductive InLabels : List Char → List Char → Prop where
  /-- In front of a label or the brace. -/
  | gap {g post : List Char} (hg : IsTrivia g) : InLabels g post
  /-- After a label in quotes. -/
  | literal {g a pre post : List Char} (hg : IsTrivia g)
    (ha : literal? (a ++ (pre ++ post)) = some (pre ++ post)) (h : InLabels pre post) :
    InLabels (g ++ '"' :: (a ++ pre)) post
  /-- After a label that is a name. -/
  | name {g n pre post : List Char} (hg : IsTrivia g)
    (hn : identifier? (n ++ (pre ++ post)) = some (n, pre ++ post)) (h : InLabels pre post) :
    InLabels (g ++ (n ++ pre)) post

/-- Places after the name that begins an item, up to the value or the brace. -/
inductive InHeader : List Char → List Char → Prop where
  /-- In front of the equals sign, a label or the brace. -/
  | labels {pre post : List Char} (h : InLabels pre post) : InHeader pre post
  /-- In front of the value. -/
  | value {g g' post : List Char} (hg : IsTrivia g) (hg' : IsTrivia g') :
    InHeader (g ++ '=' :: g') post

/-- Places between two tokens that no expression holds both of, inside so many blocks. -/
inductive Between : Nat → List Char → List Char → Prop where
  /-- In front of an item, the end of a block or the end of the file. -/
  | gap {depth : Nat} {g post : List Char} (hg : IsTrivia g) : Between depth g post
  /-- In an item, after its name. -/
  | header {depth : Nat} {g n pre post : List Char} (hg : IsTrivia g)
    (hn : identifier? (n ++ (pre ++ post)) = some (n, pre ++ post)) (h : InHeader pre post) :
    Between depth (g ++ (n ++ pre)) post
  /-- After an attribute, the brace that opens a block or the one that closes it, and after the end
  of the line if the attribute ends with a heredoc. -/
  | later {depth : Nat} {a pre post : List Char} {x : Step}
    (hx : step? depth (a ++ (pre ++ post)) = .ok (some (x, pre ++ post)))
    (hline : x.ClosesHeredoc (pre ++ post) → '\n' ∈ pre) (h : Between (x.depth depth) pre post) :
    Between depth (a ++ pre) post

/-- Places between two tokens of code that is read from a state on, where `x` may be put: not on the
line that ends a heredoc, and no comment that begins with a slash right after a division sign. -/
inductive InCode (x post : List Char) : State → List Char → Prop where
  /-- In front of the next token. -/
  | gap {s : State} {g : List Char} (hs : s.mode ≠ .parts) (hg : IsTrivia g) : InCode x post s g
  /-- After the next token. -/
  | later {s s' : State} {a pre : List Char}
    (hn : s.next (a ++ (pre ++ post)) = some (s', pre ++ post))
    (hline : ∀ m, State.context s.stack = .heredoc m →
      s.lex (a ++ (pre ++ post)) = some (.part .finish, pre ++ post) → '\n' ∈ pre)
    (hslash : s.mode ≠ .parts → skipTrivia (a ++ (pre ++ post)) = '/' :: post →
      x.head? ≠ some '/')
    (h : InCode x post s' pre) : InCode x post s (a ++ pre)

/-- Places between two tokens of a file, after the mark that may stand at its front. -/
inductive InFile (x : List Char) : List Char → List Char → Prop where
  | items {m pre post : List Char} (hm : dropMark (m ++ (pre ++ post)) = pre ++ post)
    (h : Between 0 pre post) : InFile x (m ++ pre) post
  | object {m g pre post : List Char}
    (hm : dropMark (m ++ (g ++ '{' :: (pre ++ post))) = g ++ '{' :: (pre ++ post))
    (hg : IsTrivia g) (h : InCode x post ⟨.again, [.key, .file]⟩ pre) :
    InFile x (m ++ (g ++ '{' :: pre)) post

/-! ## Texts with the same first token -/

/-- The labels of a header do not depend on the trivia in front of them. -/
theorem labels_congr {t t' : List Char} (h : skipTrivia t = skipTrivia t') (count : Nat) :
    labels count t = labels count t' := by
  rw [labels.eq_def, labels.eq_def]
  rw [h]

/-- What follows the name of an item does not depend on the trivia in front of it. -/
theorem afterName_congr {t t' : List Char} (h : skipTrivia t = skipTrivia t') (name : List Char) :
    afterName name t = afterName name t' := by
  rw [afterName, afterName, h, labels_congr h]

/-- The value after an equals sign begins at its first token. -/
theorem afterName_congr_assign {t t' u u' : List Char} (ht : skipTrivia t = '=' :: u)
    (ht' : skipTrivia t' = '=' :: u') (h : skipTrivia u = skipTrivia u') (name : List Char) :
    afterName name t = afterName name t' := by
  rw [afterName, afterName, ht, ht']
  simp only [h]

/-! ## First tokens -/

/-- Trivia is skipped up to what begins neither with a blank nor with a comment. -/
theorem IsTrivia.skipTrivia_cons {g : List Char} (hg : IsTrivia g) {c : Char}
    (hspace : isSpace c = false) (hhash : c ≠ '#') (hslash : c ≠ '/') (t : List Char) :
    skipTrivia (g ++ c :: t) = c :: t := by
  rw [hg.skipTrivia_append, Grammar.skipTrivia_cons hspace hhash hslash]

/-- A name does not begin with a character that no name begins with. -/
theorem IsName.head?_ne {n : List Char} (h : IsName n) {c : Char} (hc : isNameStart c = false)
    (t : List Char) : (n ++ t).head? ≠ some c := by
  rcases h.front with ⟨d, u, rfl, hd⟩
  intro heq
  obtain rfl : d = c := by simpa using heq
  rw [hd] at hc
  cases hc

/-- Trivia is skipped up to a name. -/
theorem IsTrivia.skipTrivia_name {g n : List Char} (hg : IsTrivia g) (hn : IsName n)
    (t : List Char) : skipTrivia (g ++ (n ++ t)) = n ++ t := by
  rw [hg.skipTrivia_append, hn.skipTrivia_append]

/-- If something stands in front of a place among labels, it is a label. -/
theorem InLabels.head? {pre post : List Char} (h : InLabels pre post) :
    IsTrivia pre ∨ (skipTrivia (pre ++ post)).head? ≠ some '=' := by
  cases h with
  | gap hg => exact .inl hg
  | literal hg ha h =>
    rw [List.append_assoc, List.cons_append, hg.skipTrivia_cons rfl (by decide) (by decide)]
    exact .inr (by simp)
  | name hg hn h =>
    have hname := isName_of_identifier? hn
    rw [List.append_assoc, List.append_assoc, hg.skipTrivia_name hname]
    exact .inr (hname.head?_ne (by decide) _)

/-- No line with a newline in it is left open. -/
theorem endsLineAt_of_mem {pre post rest' : List Char} (h : '\n' ∈ pre) :
    EndsLineAt post rest' (pre ++ post) := by
  intro a ha hspaces
  rw [← List.append_cancel_right ha] at hspaces
  cases hspaces '\n' h

/-- A run that cannot go on ends where it is, with a whole expression. -/
theorem State.run_of_next_eq_none {s : State} {t r : List Char} (hn : s.next t = none)
    (h : s.run t = .ok r) : r = t ∧ s.complete = true := by
  rw [State.run] at h
  split at h
  · next heq =>
    rw [hn] at heq
    cases heq
  · split at h
    · next hcomplete =>
      cases h
      exact ⟨rfl, hcomplete⟩
    · cases h

/-- Right after a token no template goes on at the place. -/
theorem InCode.mode_ne_parts {x post pre : List Char} {s : State} (h : InCode x post s pre)
    (hpre : pre = []) : s.mode ≠ .parts := by
  cases h with
  | gap hs hg => exact hs
  | @later s s' a pre hn hline hslash h =>
    have hlt := State.next_length hn
    obtain ⟨rfl, rfl⟩ := List.append_eq_nil_iff.1 hpre
    exact absurd hlt (Nat.lt_irrefl _)

/-! ## Insertion -/

section

variable {x post : List Char} (hx : IsTrivia x) (hne : x ≠ [])
include hx hne

/-- In front of the place both texts are the same. -/
theorem respaced_insert (a pre post : List Char) :
    Respaced False post (x ++ post) (a ++ (pre ++ post)) (a ++ (pre ++ (x ++ post))) := by
  rw [← List.append_assoc, ← List.append_assoc]
  exact .refl post (hx.separates hne post) (a ++ pre)

omit hne in
/-- Trivia more in front of trivia is skipped with it. -/
theorem skipTrivia_insert {g : List Char} (hg : IsTrivia g) (post : List Char) :
    skipTrivia (g ++ (x ++ post)) = skipTrivia (g ++ post) := by
  rw [hg.skipTrivia_append, hg.skipTrivia_append, hx.skipTrivia_append]

/-- Strings before a place are read the same with trivia inserted there. -/
theorem literal?_insert {a pre : List Char}
    (h : literal? (a ++ (pre ++ post)) = some (pre ++ post)) :
    literal? (a ++ (pre ++ (x ++ post))) = some (pre ++ (x ++ post)) := by
  have hrel := respaced_insert hx hne a pre post
  rcases hrel.literal? h (List.suffix_append pre post).length_le with ⟨u', hu', hrel'⟩
  rw [hu', hrel'.eq_append]

/-- Names before a place are read the same with trivia inserted there. -/
theorem identifier?_insert {n pre : List Char}
    (h : identifier? (n ++ (pre ++ post)) = some (n, pre ++ post)) :
    identifier? (n ++ (pre ++ (x ++ post))) = some (n, pre ++ (x ++ post)) := by
  have hrel := respaced_insert hx hne n pre post
  rcases hrel.identifier? h (List.suffix_append pre post).length_le with ⟨u', hu', hrel'⟩
  rw [hu', hrel'.eq_append]

/-- The same labels are read. -/
theorem InLabels.labels_insert {pre : List Char} (h : InLabels pre post) {count : Nat}
    {y : List String × List Char} (hy : labels count (pre ++ post) = .ok y) :
    labels count (pre ++ (x ++ post)) = .ok y := by
  induction h generalizing count y with
  | gap hg => rwa [labels_congr (skipTrivia_insert hx hg _)]
  | @literal g a pre post hg ha h ih =>
    have hskip : ∀ r, skipTrivia (g ++ '"' :: (a ++ pre) ++ r) = '"' :: (a ++ (pre ++ r)) := by
      intro r
      rw [List.append_assoc, List.cons_append, hg.skipTrivia_cons rfl (by decide) (by decide),
        List.append_assoc]
    have hconsumed : ∀ r, consumed ('"' :: (a ++ (pre ++ r))) (pre ++ r) = '"' :: a :=
      fun r => consumed_append ('"' :: a) (pre ++ r)
    rw [labels_literal (hskip post) ha, hconsumed] at hy
    rw [labels_literal (hskip (x ++ post)) (literal?_insert hx hne ha), hconsumed]
    cases hrest : labels (count + 1) (pre ++ post) with
    | error e =>
      rw [hrest] at hy
      cases hy
    | ok z => rwa [ih hrest, ← hrest]
  | @name g n pre post hg hn h ih =>
    have hname := isName_of_identifier? hn
    have hskip : ∀ r, skipTrivia (g ++ (n ++ pre) ++ r) = n ++ (pre ++ r) := by
      intro r
      rw [List.append_assoc, List.append_assoc, hg.skipTrivia_name hname]
    have hn' := identifier?_insert hx hne hn
    rcases hname.front with ⟨c, u, rfl, -⟩
    rw [labels_identifier (hskip post) hn] at hy
    rw [labels_identifier (hskip (x ++ post)) hn']
    cases hrest : labels (count + 1) (pre ++ post) with
    | error e =>
      rw [hrest] at hy
      cases hy
    | ok z => rwa [ih hrest, ← hrest]

/-- The same item is read after its name. -/
theorem InHeader.afterName_insert {pre : List Char} (h : InHeader pre post) {name : List Char}
    {y : Step × List Char} (hy : afterName name (pre ++ post) = .ok y) :
    afterName name (pre ++ (x ++ post)) = .ok y := by
  cases h with
  | labels h =>
    rcases y with ⟨step, r⟩
    rcases afterName_cases hy with ⟨u, raw, -, ht, -⟩ | ⟨ls, rfl, hl⟩
    · -- Only blanks and comments stand in front of the equals sign.
      have hg : IsTrivia pre := h.head?.resolve_right fun hhead => hhead (by rw [ht]; rfl)
      rwa [afterName_congr (skipTrivia_insert hx hg _)]
    · have hl' := h.labels_insert hx hne hl
      exact afterName_of_labels name (head?_of_labels hl') hl'
  | @value g g' _ hg hg' =>
    have hskip : ∀ r, skipTrivia (g ++ '=' :: g' ++ r) = '=' :: (g' ++ r) := by
      intro r
      rw [List.append_assoc, List.cons_append, hg.skipTrivia_cons rfl (by decide) (by decide)]
    rwa [afterName_congr_assign (hskip (x ++ post)) (hskip post) (skipTrivia_insert hx hg' _)]

/-- The same step is read in front of the place. -/
theorem step?_insert {depth : Nat} {a pre : List Char} {y : Step}
    (hy : step? depth (a ++ (pre ++ post)) = .ok (some (y, pre ++ post)))
    (hline : y.ClosesHeredoc (pre ++ post) → '\n' ∈ pre)
    (hends : EndsExpression (pre ++ (x ++ post))) :
    step? depth (a ++ (pre ++ (x ++ post))) = .ok (some (y, pre ++ (x ++ post))) := by
  have hends : ∀ r', Respaced False post (x ++ post) (pre ++ post) r' → EndsExpression r' := by
    intro r' hr'
    rwa [hr'.eq_append]
  have hcloses : y.ClosesHeredoc (pre ++ post) → EndsLineAt post (x ++ post) (pre ++ post) :=
    fun hcloses => endsLineAt_of_mem (hline hcloses)
  rcases (respaced_insert hx hne a pre post).step? hy (List.suffix_append pre post).length_le
    hends hcloses with ⟨r', hstep, hrel⟩
  rwa [hrel.eq_append] at hstep

/-- The same steps are read. -/
theorem Between.steps_insert {depth : Nat} {pre : List Char} (h : Between depth pre post)
    {xs : List Step} (hxs : steps depth (pre ++ post) = .ok xs) :
    steps depth (pre ++ (x ++ post)) = .ok xs := by
  induction h generalizing xs with
  | gap hg => rwa [steps_congr (skipTrivia_insert hx hg _)]
  | @header depth g n pre post hg hn h =>
    have hname := isName_of_identifier? hn
    have hskip : ∀ r, skipTrivia (g ++ (n ++ pre) ++ r) = n ++ (pre ++ r) := by
      intro r
      rw [List.append_assoc, List.append_assoc, hg.skipTrivia_name hname]
    have hn' := identifier?_insert hx hne hn
    rcases hname.front with ⟨c, u, rfl, -⟩
    have hstep := step?_identifier (hskip post) hn depth
    have hstep' := step?_identifier (hskip (x ++ post)) hn' depth
    rcases hafter : afterName (c :: u) (pre ++ post) with e | y
    · rw [hafter] at hstep
      rw [steps_of_error hstep] at hxs
      cases hxs
    · rw [hafter] at hstep
      rw [h.afterName_insert hx hne hafter] at hstep'
      rwa [steps_of_step? hstep', ← steps_of_step? hstep]
  | @later depth a pre post y hy hline h ih =>
    rw [List.append_assoc] at hxs ⊢
    rw [steps_of_step? hy] at hxs
    rcases hrest : steps (y.depth depth) (pre ++ post) with e | ys
    · rw [hrest] at hxs
      cases hxs
    · -- What follows the step is read, so an expression in front of it ends there.
      have hrest' := ih hrest
      have hstep := step?_insert hx hne hy hline (endsExpression_of_steps hrest')
      rw [steps_of_step? hstep, hrest', ← hrest, hxs]

/-- Code ends at the same token, but for blanks and comments. -/
theorem InCode.run_insert {s : State} {pre r : List Char} (h : InCode x post s pre)
    (hs : s.Marked) (hr : s.run (pre ++ post) = .ok r) :
    ∃ r', s.run (pre ++ (x ++ post)) = .ok r' ∧ skipTrivia r' = skipTrivia r := by
  induction h with
  | @gap s g hmode hg =>
    have hskip := skipTrivia_insert hx hg post
    have hnext := State.next_congr hmode hskip
    rcases hn : s.next (g ++ post) with _ | ⟨s', u⟩
    · rcases State.run_of_next_eq_none hn hr with ⟨rfl, hcomplete⟩
      exact ⟨_, State.run_of_complete hcomplete (hnext.trans hn), hskip⟩
    · refine ⟨r, ?_, rfl⟩
      rw [State.run_of_next (hnext.trans hn), ← State.run_of_next hn, hr]
  | @later s s' a pre hn hline hslash h ih =>
    rw [List.append_assoc] at hr ⊢
    rw [State.run_of_next hn] at hr
    have hrel := respaced_insert hx hne a pre post
    have hapart : State.Apart post (x ++ post) s s' (a ++ (pre ++ post)) (pre ++ post) := by
      constructor
      · intro hlength
        rw [List.length_append] at hlength
        exact h.mode_ne_parts (List.eq_nil_of_length_eq_zero (by omega))
      · intro hmode hskip
        rw [List.head?_append_of_ne_nil x hne]
        exact hslash hmode hskip
      · exact fun m hm hfinish => endsLineAt_of_mem (hline m hm hfinish)
    rcases State.next_respaced hs hrel hn (List.suffix_append pre post).length_le hapart with
      ⟨u', hn', hrel'⟩
    rw [hrel'.eq_append] at hn'
    rw [State.run_of_next hn']
    exact ih (State.next_marked hs hn) hr

end

/-! ## Files -/

/-- The mark is dropped in front of other text as well. -/
theorem dropMark_append {m u v : List Char} (h : dropMark (m ++ u) = u)
    (hv : v.head? = some '\ufeff' → u.head? = some '\ufeff') : dropMark (m ++ v) = v := by
  cases m with
  | nil =>
    apply dropMark_of_head?
    intro hhead
    rcases List.head?_eq_some_iff.1 (hv hhead) with ⟨w, rfl⟩
    have hlength := congrArg List.length h
    simp [dropMark] at hlength
  | cons c m =>
    have hlength := congrArg List.length h
    rw [List.cons_append, dropMark] at h hlength
    by_cases hc : c = '\ufeff'
    · rw [if_pos hc] at h
      obtain rfl : m = [] := List.append_left_eq_self.1 h
      rw [List.cons_append, dropMark, if_pos hc]
      rfl
    · rw [if_neg hc, List.length_cons, List.length_append] at hlength
      omega

/-- A text with trivia inserted begins like the text without it, or like trivia. -/
theorem head?_insert {x : List Char} (hx : IsTrivia x) (hne : x ≠ []) (pre post : List Char)
    {c : Char} (hc : isBreak c = false) (h : (pre ++ (x ++ post)).head? = some c) :
    (pre ++ post).head? = some c := by
  cases pre with
  | nil =>
    rcases hx.separates hne post with ⟨b, u, hu, hb⟩
    rw [List.nil_append, hu] at h
    cases h
    rw [hb] at hc
    cases hc
  | cons d pre => exact h

/-- If something stands in front of a place outside of expressions, it is an item. -/
theorem Between.head? {depth : Nat} {pre post : List Char} (h : Between depth pre post) :
    IsTrivia pre ∨ (skipTrivia (pre ++ post)).head? ≠ some '{' := by
  cases h with
  | gap hg => exact .inl hg
  | header hg hn h =>
    have hname := isName_of_identifier? hn
    rw [List.append_assoc, List.append_assoc, hg.skipTrivia_name hname]
    exact .inr (hname.head?_ne (by decide) _)
  | later hx hline h =>
    rw [List.append_assoc]
    exact .inr (head?_of_step? hx)

/-- The tree of a file does not change. -/
theorem parse_insert {x pre post : List Char} (h : InFile x pre post) (hx : IsTrivia x)
    {b : Tree.Body} (hb : parse (pre ++ post) = .ok b) : parse (pre ++ (x ++ post)) = .ok b := by
  by_cases hne : x = []
  · rwa [hne, List.nil_append]
  have hmark : isBreak '\ufeff' = false := by decide
  cases h with
  | @items m pre post hm h =>
    have hm' := dropMark_append (v := pre ++ (x ++ post)) hm (head?_insert hx hne pre post hmark)
    rw [List.append_assoc] at hb ⊢
    by_cases hbrace : (skipTrivia (pre ++ post)).head? = some '{'
    · have hpre := h.head?.resolve_right fun hnot => hnot hbrace
      rcases List.head?_eq_some_iff.1 hbrace with ⟨v, hv⟩
      have hv' := (skipTrivia_insert hx hpre post).trans hv
      rw [← hm] at hv
      rw [← hm'] at hv'
      rwa [parse_of_brace hv', ← parse_of_brace hv]
    · rw [parse_of_not_brace (by rwa [hm]), hm] at hb
      rcases hxs : steps 0 (pre ++ post) with e | xs
      · rw [hxs] at hb
        cases hb
      · have hxs' := h.steps_insert hx hne hxs
        rwa [parse_of_not_brace (by rw [hm']; exact head?_of_steps hxs'), hm', hxs', ← hxs]
  | @object m g pre post hm hg h =>
    have hm' : dropMark (m ++ (g ++ '{' :: (pre ++ (x ++ post)))) =
        g ++ '{' :: (pre ++ (x ++ post)) := by
      refine dropMark_append hm fun hhead => ?_
      cases g <;> exact hhead
    have hskip : ∀ r, skipTrivia (g ++ '{' :: r) = '{' :: r :=
      hg.skipTrivia_cons rfl (by decide) (by decide)
    have hobject := parse_of_brace ((congrArg skipTrivia hm).trans (hskip _))
    have hobject' := parse_of_brace ((congrArg skipTrivia hm').trans (hskip _))
    simp only [List.append_assoc, List.cons_append] at hb ⊢
    rw [hobject, parseObject_eq_ok] at hb
    rw [hobject', parseObject_eq_ok]
    rcases hb with ⟨rfl, u, hscan, hu⟩
    rcases h.run_insert hx hne marked_object hscan with ⟨u', hscan', hu'⟩
    exact ⟨rfl, u', hscan', hu'.trans hu⟩

end HclQuery.Grammar

namespace HclQuery

open Text Grammar

/-- Blanks and complete comments between the tokens of an accepted file, outside of the values of
its attributes and not on the line that ends a heredoc, do not change its document. -/
theorem toDocument_insert {source : List UInt8} {d : Document} (hd : toDocument source = .ok d)
    {pre post x : List Char} (hsource : Utf8.decode source = .ok (pre ++ post))
    (hplace : InFile x pre post) (hx : IsTrivia x) :
    toDocument (Utf8.encode (pre ++ (x ++ post))) = .ok d := by
  rcases toDocument_eq_ok.1 hd with ⟨t, b, ht, hb, hdb⟩
  rw [hsource] at ht
  cases ht
  exact toDocument_eq_ok.2 ⟨_, b, Utf8.decode_encode _, parse_insert hplace hx hb, hdb⟩

/-- A block with a heredoc and a number, up to the equals sign of the number. -/
def beforeNumber : List Char :=
  ['a', ' ', '{', '\n', 'x', ' ', '=', ' ', '<', '<', 'E', '\n', 'E', '\n', 'y', ' ', '=']

/-- The rest of the block. -/
def fromNumber : List Char :=
  [' ', '1', '\n', '}', '\n']

/-- The document of the block. -/
def heredocAndNumber : Document :=
  ⟨[.mk "a" [] ((Attributes.empty.insert "x" "<<E\nE").insert "y" "1") []]⟩

/-- A comment with a brace in it, in front of the number. -/
def braceComment : List Char :=
  ['/', '*', ' ', '}', ' ', '*', '/']

theorem isTrivia_braceComment : IsTrivia braceComment :=
  .block (b := [' ', '}', ' ']) ⟨by decide, by decide⟩ .nil

/-- In front of a number that is a value, there is a place between two tokens. -/
theorem inFile_beforeNumber : InFile braceComment beforeNumber fromNumber := by
  have hspace : IsTrivia [' '] := .space rfl .nil
  have hnewline : IsTrivia ['\n'] := .space rfl .nil
  have hvalue : InHeader ([' '] ++ '=' :: []) fromNumber := .value hspace .nil
  have hnumber : Between 1 (['\n'] ++ (['y'] ++ ([' '] ++ '=' :: []))) fromNumber :=
    .header hnewline (by decide +kernel) hvalue
  have hheredoc : Between 1 (['\n', 'x', ' ', '=', ' ', '<', '<', 'E', '\n', 'E'] ++
      (['\n'] ++ (['y'] ++ ([' '] ++ '=' :: [])))) fromNumber :=
    .later (x := .set ['x'] ['<', '<', 'E', '\n', 'E']) (ok_of_toOption (by decide +kernel))
      (fun _ => by decide) hnumber
  have hblock : Between 0 beforeNumber fromNumber :=
    .later (a := ['a', ' ', '{']) (x := .enter ['a'] []) (ok_of_toOption (by decide +kernel)) nofun
      hheredoc
  exact .items (m := []) rfl hblock

/-- The comment does not close the block. -/
theorem toDocument_insert_braceComment :
    toDocument (Utf8.encode (beforeNumber ++ fromNumber)) = .ok heredocAndNumber ∧
      toDocument (Utf8.encode (beforeNumber ++ (braceComment ++ fromNumber))) =
        .ok heredocAndNumber := by
  have hd : toDocument (Utf8.encode (beforeNumber ++ fromNumber)) = .ok heredocAndNumber :=
    ok_of_toOption (by decide +kernel)
  exact ⟨hd, toDocument_insert hd (Utf8.decode_encode _) inFile_beforeNumber isTrivia_braceComment⟩

/-- A lone object with a quotient, up to its division sign. -/
def beforeDivisor : List Char :=
  ['{', 'a', '=', '1', '/']

/-- The rest of the object. -/
def fromDivisor : List Char :=
  ['2', '}']

/-- A comment without text. -/
def emptyComment : List Char :=
  ['/', '*', '*', '/']

/-- A block without items. -/
def emptyBlock : List Char :=
  ['a', ' ', '{', '\n', '}', '\n']

/-- A line that would be a comment but for the NUL in it. -/
def zeroComment : List Char :=
  ['#', '\x00', '\n']

theorem isTrivia_emptyComment : IsTrivia emptyComment :=
  .block (b := []) ⟨by decide, by decide⟩ .nil

/-- A blank may stand behind the division sign. -/
theorem inFile_beforeDivisor : InFile [' '] beforeDivisor fromDivisor := by
  have hdivisor : InCode [' '] fromDivisor ⟨.operand, [.value, .file]⟩ [] := .gap nofun .nil
  have hquotient : InCode [' '] fromDivisor ⟨.term false, [.value, .file]⟩ ['/'] :=
    .later (a := ['/']) (by decide +kernel) nofun (fun _ _ => by decide) hdivisor
  have hvalue : InCode [' '] fromDivisor ⟨.operand, [.value, .file]⟩ ['1', '/'] :=
    .later (a := ['1']) (by decide +kernel) nofun (fun _ _ => by decide) hquotient
  have hassign : InCode [' '] fromDivisor ⟨.term true, [.key, .file]⟩ ['=', '1', '/'] :=
    .later (a := ['=']) (by decide +kernel) nofun (fun _ _ => by decide) hvalue
  have hkey : InCode [' '] fromDivisor ⟨.again, [.key, .file]⟩ ['a', '=', '1', '/'] :=
    .later (a := ['a']) (by decide +kernel) nofun (fun _ _ => by decide) hassign
  exact .object (m := []) (g := []) rfl .nil hkey

/-- Anything may follow the block. -/
theorem inFile_emptyBlock (x : List Char) : InFile x emptyBlock [] := by
  have hend : Between 0 ['\n'] [] := .gap (.space rfl .nil)
  have hitems : Between 1 ['\n', '}', '\n'] [] :=
    .later (a := ['\n', '}']) (x := .leave) (ok_of_toOption (by decide +kernel)) nofun hend
  have hblock : Between 0 emptyBlock [] :=
    .later (a := ['a', ' ', '{']) (x := .enter ['a'] []) (ok_of_toOption (by decide +kernel)) nofun
      hitems
  exact .items (m := []) rfl hblock

/-- Not every place between two tokens, that is, every place for a blank, takes every comment:
behind a division sign, a comment that begins with a slash makes one that takes the rest of the
line; and a comment with a NUL in it is none. -/
theorem not_toDocument_insert :
    (¬∀ source d pre post x, toDocument source = .ok d → Utf8.decode source = .ok (pre ++ post) →
      InFile [' '] pre post → IsTrivia x →
      toDocument (Utf8.encode (pre ++ (x ++ post))) = .ok d) ∧
    (toDocument (Utf8.encode (beforeDivisor ++ fromDivisor)) = .ok ⟨[]⟩ ∧
      InFile [' '] beforeDivisor fromDivisor ∧ IsTrivia emptyComment ∧
      (toDocument (Utf8.encode (beforeDivisor ++ (emptyComment ++ fromDivisor)))).isOk = false) ∧
    toDocument (Utf8.encode emptyBlock) = .ok ⟨[.mk "a" [] .empty []]⟩ ∧
      (∀ x, InFile x emptyBlock []) ∧
      (toDocument (Utf8.encode (emptyBlock ++ zeroComment))).isOk = false := by
  have hquotient : toDocument (Utf8.encode (beforeDivisor ++ fromDivisor)) = .ok ⟨[]⟩ :=
    ok_of_toOption (by decide +kernel)
  have hrefused :
      (toDocument (Utf8.encode (beforeDivisor ++ (emptyComment ++ fromDivisor)))).isOk = false := by
    decide +kernel
  refine ⟨fun h => ?_, ⟨hquotient, inFile_beforeDivisor, isTrivia_emptyComment, hrefused⟩,
    ok_of_toOption (by decide +kernel), inFile_emptyBlock, by decide +kernel⟩
  have haccepted := h _ _ _ _ _ hquotient (Utf8.decode_encode _) inFile_beforeDivisor
    isTrivia_emptyComment
  rw [haccepted] at hrefused
  cases hrefused

end HclQuery
