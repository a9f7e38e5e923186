import HclQuery.Proofs.Grammar.Parsed
import HclQuery.Proofs.Grammar.Trivia

/-!
# Items of texts that go on differently

Two texts that agree up to a place are read alike before it: the item that ends there is the same,
if the second text goes on with a blank or a comment, an item or the end of the file comes next, and
a heredoc that ends at the place is followed by the end of its line.

Main definitions:

- {lit}`Step.ClosesHeredoc`: steps that set a value whose last token is the end of a heredoc.

Main results:

- Theorem {lit}`Respaced.labels`: the same labels are read.
- Theorem {lit}`Respaced.step?`: the same step is read.
- Theorem {lit}`endsExpression_of_step?`: no expression goes on where a step is read.
-/

namespace HclQuery.Grammar

open Text

variable {rest rest' t t' : List Char}

/-- A name begins with a character that may begin one. -/
theorem isNameStart_of_identifier? {t u name : List Char} {c : Char}
    (h : identifier? (c :: t) = some (name, u)) : isNameStart c = true := by
  by_contra hc
  rw [identifier?, if_neg hc] at h
  cases h

/-- Nothing is left where no step follows, and all blocks are closed. -/
theorem skipTrivia_of_step?_none {depth : Nat} {t : List Char} (h : step? depth t = .ok none) :
    skipTrivia t = [] ∧ depth = 0 := by
  unfold step? at h
  split at h
  · next ht =>
    split at h
    · next hdepth => exact ⟨ht, hdepth⟩
    · cases h
  · split at h
    · split at h <;> cases h
    · split at h
      · cases h
      · split at h <;> cases h

/-- Outside strings and heredocs, what is read next does not depend on the trivia in front of it. -/
theorem State.next_congr {s : State} (hs : s.mode ≠ .parts) {t t' : List Char}
    (h : skipTrivia t = skipTrivia t') : s.next t = s.next t' := by
  rw [State.next, State.next, State.lex, State.lex, if_neg hs, if_neg hs, h]

/-- A part of a string is followed by the end of the same string. -/
theorem literal?_of_part? {t u : List Char} {p : Part}
    (h : part? .quoted false true t = some (p, u)) (hp : p ≠ .finish) :
    literal? t = literal? u := by
  rw [literal?]
  split
  · next heq =>
    rw [h] at heq
    cases heq
  · next heq =>
    rw [h] at heq
    cases heq
    exact absurd rfl hp
  · next heq =>
    rw [h] at heq
    cases heq
    rfl

/-- What follows a string is the end of the text. -/
theorem literal?_suffix {t u : List Char} (h : literal? t = some u) : u <:+ t := by
  fun_induction literal? t with
  | case1 => cases h
  | case2 t v hp =>
    cases h
    exact (part?_suffix hp).trans (List.dropWhile_suffix isSpace)
  | case3 t p v hne hp ih =>
    exact (ih h).trans ((part?_suffix hp).trans (List.dropWhile_suffix isSpace))

/-- A label that is a name and the labels after it. -/
theorem labels_identifier {t u v name : List Char} {c : Char} (h : skipTrivia t = c :: u)
    (hi : identifier? (c :: u) = some (name, v)) (count : Nat) :
    labels count t = (labels (count + 1) v).map fun r => (String.ofList name :: r.1, r.2) := by
  have hne : ∀ d, isNameStart d = false → c ≠ d := by
    rintro d hd rfl
    rw [isNameStart_of_identifier? hi] at hd
    cases hd
  rw [labels]
  split
  · next heq =>
    rw [h] at heq
    cases heq
  · next d x heq =>
    rw [h] at heq
    cases heq
    rw [if_neg (hne '{' (by decide)), if_neg (hne '"' (by decide))]
    split
    · next hnone =>
      rw [hi] at hnone
      cases hnone
    · next hsome =>
      rw [hi] at hsome
      cases hsome
      cases labels (count + 1) v <;> rfl

/-- Labels do not begin with an equals sign. -/
theorem head?_of_labels {t r : List Char} {ls : List String} {count : Nat}
    (h : labels count t = .ok (ls, r)) : (skipTrivia t).head? ≠ some '=' := by
  intro hhead
  rcases List.head?_eq_some_iff.1 hhead with ⟨u, hu⟩
  have hnone : identifier? ('=' :: u) = none := by
    have hstart : isNameStart '=' = false := by decide
    rw [identifier?, hstart]
    rfl
  rw [labels] at h
  split at h
  · cases h
  · next heq =>
    rw [hu] at heq
    cases heq
    rw [if_neg (by decide), if_neg (by decide)] at h
    split at h
    · cases h
    · next heq =>
      rw [hnone] at heq
      cases heq

/-! ## Steps -/

/-- A step sets a value that ends with the end of a heredoc. -/
def Step.ClosesHeredoc (x : Step) (r : List Char) : Prop :=
  match x with
  | set _ raw => Grammar.ClosesHeredoc r ⟨.operand, []⟩ (raw ++ r)
  | enter .. | leave => False

/-- What follows a name: a value, or the labels of a block. -/
theorem afterName_cases {name t r : List Char} {x : Step} (h : afterName name t = .ok (x, r)) :
    (∃ u raw, x = .set name raw ∧ skipTrivia t = '=' :: u ∧ skipTrivia u = raw ++ r ∧
      scan (raw ++ r) = .ok r) ∨
      ∃ ls, x = .enter name ls ∧ labels 0 t = .ok (ls, r) := by
  unfold afterName at h
  split at h
  · next u ht =>
    simp only at h
    split at h
    · next w hscan =>
      cases h
      rcases State.run_suffix hscan with ⟨raw, hraw⟩
      rw [← hraw, consumed_append]
      exact .inl ⟨u, raw, rfl, ht, hraw.symm, by rwa [hraw]⟩
    · cases h
  · split at h
    · next ls v hl =>
      cases h
      exact .inr ⟨ls, rfl, hl⟩
    · cases h

/-- What is read as a step: the end of a block, or an item that begins with a name. -/
theorem step?_cases {depth : Nat} {t r : List Char} {x : Step}
    (h : step? depth t = .ok (some (x, r))) :
    (depth ≠ 0 ∧ x = .leave ∧ skipTrivia t = '}' :: r) ∨
      ∃ c u name v, skipTrivia t = c :: u ∧ identifier? (c :: u) = some (name, v) ∧
        afterName name v = .ok (x, r) := by
  unfold step? at h
  split at h
  · split at h <;> cases h
  · next c u ht =>
    split at h
    · next hbrace =>
      split at h
      · cases h
      · next hdepth =>
        cases h
        exact .inl ⟨hdepth, rfl, hbrace ▸ ht⟩
    · split at h
      · cases h
      · next name v hi =>
        split at h
        · next hafter =>
          cases h
          exact .inr ⟨c, u, name, v, ht, hi, hafter⟩
        · cases h

/-- In a block, a closing brace leaves it. -/
theorem step?_of_closeBrace {depth : Nat} {t r : List Char} (hdepth : depth ≠ 0)
    (ht : skipTrivia t = '}' :: r) : step? depth t = .ok (some (.leave, r)) := by
  rw [step?, ht]
  simp only [if_true, if_neg hdepth]

/-- The item that begins with a name. -/
theorem step?_identifier {t u v name : List Char} {c : Char} (ht : skipTrivia t = c :: u)
    (hi : identifier? (c :: u) = some (name, v)) (depth : Nat) :
    step? depth t = (afterName name v).map some := by
  have hbrace : c ≠ '}' := by
    rintro rfl
    have hstart : isNameStart '}' = false := by decide
    rw [isNameStart_of_identifier? hi] at hstart
    cases hstart
  rw [step?, ht]
  simp only [if_neg hbrace, hi]
  cases afterName name v <;> rfl

/-- No expression goes on where a step is read or the steps end. -/
theorem endsExpression_of_step? {depth : Nat} {t : List Char} {y : Option (Step × List Char)}
    (h : step? depth t = .ok y) : EndsExpression t := by
  rcases y with _ | ⟨x, r⟩
  · exact endsExpression_of_skipTrivia_nil (skipTrivia_of_step?_none h).1
  · rcases step?_cases h with ⟨-, -, ht⟩ | ⟨c, u, name, v, ht, hi, -⟩
    · exact endsExpression_of_closeBrace ht
    · exact endsExpression_of_isNameStart ht (isNameStart_of_identifier? hi)

/-- No item begins with an opening brace. -/
theorem head?_of_step? {depth : Nat} {t r : List Char} {x : Step}
    (h : step? depth t = .ok (some (x, r))) : (skipTrivia t).head? ≠ some '{' := by
  intro hhead
  rcases List.head?_eq_some_iff.1 hhead with ⟨v, hv⟩
  rcases step?_cases h with ⟨-, -, ht⟩ | ⟨c, u, name, w, ht, hi, -⟩
  · rw [hv] at ht
    cases ht
  · have hc := isNameStart_of_identifier? hi
    rw [hv] at ht
    cases ht
    have hstart : isNameStart '{' = false := by decide
    rw [hstart] at hc
    cases hc

/-- No expression goes on with a text that is items. -/
theorem endsExpression_of_steps {depth : Nat} {t : List Char} {xs : List Step}
    (h : steps depth t = .ok xs) : EndsExpression t := by
  rcases hstep : step? depth t with e | y
  · rw [steps_of_error hstep] at h
    cases h
  · exact endsExpression_of_step? hstep

/-- Steps do not begin with a brace that opens. -/
theorem head?_of_steps {depth : Nat} {t : List Char} {xs : List Step}
    (h : steps depth t = .ok xs) : (skipTrivia t).head? ≠ some '{' := by
  intro hhead
  rcases hstep : step? depth t with e | _ | ⟨x, r⟩
  · rw [steps_of_error hstep] at h
    cases h
  · rw [(skipTrivia_of_step?_none hstep).1] at hhead
    cases hhead
  · exact head?_of_step? hstep hhead

/-! ## Files -/

/-- A text without a byte order mark is left as it is. -/
theorem dropMark_of_head? {t : List Char} (h : t.head? ≠ some '\ufeff') : dropMark t = t := by
  cases t with
  | nil => rfl
  | cons c t =>
    rw [dropMark, if_neg]
    rintro rfl
    exact h rfl

/-- Nothing follows the object of a file. -/
theorem parseObject_eq_ok {t : List Char} {b : Tree.Body} :
    parseObject t = .ok b ↔ b = [] ∧ ∃ u, scanObject t = .ok u ∧ skipTrivia u = [] := by
  constructor
  · intro h
    rw [parseObject] at h
    split at h
    · cases h
    · next u hu =>
      split at h
      · next hskip =>
        cases h
        exact ⟨rfl, u, hu, hskip⟩
      · cases h
  · rintro ⟨rfl, u, hu, hskip⟩
    rw [parseObject, hu]
    simp only
    split
    · rfl
    · next hne => exact absurd hskip hne

/-! ## What is taken -/

namespace Respaced

/-- Texts without differences in their gaps agree in front of the place. -/
theorem exists_eq_append (h : Respaced False rest rest' t t') :
    ∃ v, t = v ++ rest ∧ t' = v ++ rest' := by
  induction h with
  | stop => exact ⟨[], rfl, rfl⟩
  | char c h ih =>
    rcases ih with ⟨v, rfl, rfl⟩
    exact ⟨c :: v, rfl, rfl⟩
  | gap hgaps => exact hgaps.elim

/-- Texts without differences in their gaps go on with the same characters. -/
theorem eq_append {v : List Char} (h : Respaced False rest rest' (v ++ rest) t') :
    t' = v ++ rest' := by
  rcases h.exists_eq_append with ⟨w, hw, rfl⟩
  rw [List.append_cancel_right hw]

/-- What is taken of both texts is the same. -/
theorem consumed_eq {u u' : List Char} (h : Respaced False rest rest' t t')
    (hu : Respaced False rest rest' u u') (hsuffix : u <:+ t) :
    consumed t' u' = consumed t u ∧ t' = consumed t u ++ u' := by
  rcases h.exists_eq_append with ⟨v, rfl, rfl⟩
  rcases hu.exists_eq_append with ⟨w, rfl, rfl⟩
  rcases hsuffix with ⟨a, ha⟩
  rw [← List.append_assoc] at ha
  obtain rfl := List.append_cancel_right ha
  rw [List.append_assoc, List.append_assoc, consumed_append, consumed_append]
  exact ⟨rfl, rfl⟩

/-! ## Labels -/

/-- The first token of both texts, if it begins like no comment. -/
theorem skipTrivia_front {gaps : Prop} {c : Char} {u : List Char}
    (h : Respaced gaps rest rest' t t') (ht : skipTrivia t = c :: u) (hc : isSpace c = false)
    (hslash : c ≠ '/') (hu : rest.length ≤ u.length) :
    ∃ u', skipTrivia t' = c :: u' ∧ Respaced gaps rest rest' u u' := by
  have hlt : rest.length < (skipTrivia t).length := by
    rw [ht, List.length_cons]
    omega
  have hskip := h.skipsAlike.trivia hlt
  rw [ht] at hskip
  rcases hskip with hrel | ⟨v, hv⟩ | ⟨hstop, -⟩
  · rcases hrel.of_cons hc with ⟨u', hu', hrel⟩ | ⟨hstop, -⟩
    · exact ⟨u', hu', hrel⟩
    · have hlength := congrArg List.length hstop
      rw [List.length_cons] at hlength
      omega
  · cases hv
    exact absurd rfl hslash
  · cases hstop
    exact absurd rfl hslash

/-- The rest of a label after its opening quote. -/
theorem literal? {gaps : Prop} {u : List Char} (h : Respaced gaps rest rest' t t')
    (hl : Grammar.literal? t = some u) (hu : rest.length ≤ u.length) :
    ∃ u', Grammar.literal? t' = some u' ∧ Respaced gaps rest rest' u u' := by
  have hquoted : ∀ m, Context.quoted = .heredoc m → ∀ c ∈ m, isSpace c = false :=
    fun m hm => by cases hm
  fun_induction Grammar.literal? t generalizing t' with
  | case1 => cases hl
  | case2 t v hp =>
    cases hl
    rcases h.part? hquoted hp hu (fun hchunk => by cases hchunk) (fun m hm => by cases hm) with
      ⟨u', hp', hrel⟩
    exact ⟨u', literal?_of_finish hp', hrel⟩
  | case3 t p v hne hp ih =>
    have hlt := Nat.lt_of_le_of_lt hu (literal?_length hl)
    rcases h.part? hquoted hp (Nat.le_of_lt hlt) (fun _ => hlt) (fun m hm => by cases hm) with
      ⟨v', hp', hrel⟩
    rw [literal?_of_part? hp' hne]
    exact ih hrel hl

/-- The identifier that is the first token of both texts. -/
theorem skipTrivia_identifier {gaps : Prop} {c : Char} {u v name : List Char}
    (h : Respaced gaps rest rest' t t') (ht : skipTrivia t = c :: u)
    (hi : Grammar.identifier? (c :: u) = some (name, v)) (hv : rest.length ≤ v.length) :
    ∃ u' v', skipTrivia t' = c :: u' ∧ Grammar.identifier? (c :: u') = some (name, v') ∧
      Respaced gaps rest rest' v v' := by
  have hc := isNameStart_of_identifier? hi
  have hslash : c ≠ '/' := by
    rintro rfl
    have hstart : isNameStart '/' = false := by decide
    rw [hc] at hstart
    cases hstart
  have hlt := identifier?_length hi
  rw [List.length_cons] at hlt
  rcases h.skipTrivia_front ht (isSpace_of_visible (visible_of_isNameStart hc)) hslash (by omega)
    with ⟨u', ht', hrel⟩
  rcases (Respaced.char c hrel).identifier? hi hv with ⟨v', hi', hrel'⟩
  exact ⟨u', v', ht', hi', hrel'⟩

/-- The labels of a block up to its brace. -/
theorem labels {n : Nat} {ls : List String} {r : List Char}
    (h : Respaced False rest rest' t t') (hl : Grammar.labels n t = .ok (ls, r))
    (hr : rest.length ≤ r.length) :
    ∃ r', Grammar.labels n t' = .ok (ls, r') ∧ Respaced False rest rest' r r' := by
  fun_induction Grammar.labels n t generalizing t' ls with
  | case1 => cases hl
  | case2 n t u ht =>
    cases hl
    rcases h.skipTrivia_front ht rfl (by decide) hr with ⟨u', ht', hrel⟩
    exact ⟨u', labels_of_brace ht' n, hrel⟩
  | case3 => cases hl
  | case4 => cases hl
  | case5 n t u v hv ls' w hw ht hne ih =>
    cases hl
    have hv' := Nat.le_trans hr (Nat.le_of_lt (labels_length hw))
    have hu := Nat.le_trans hv' (Nat.le_of_lt (literal?_length hv))
    rcases h.skipTrivia_front ht rfl (by decide) hu with ⟨u', ht', hrel⟩
    rcases hrel.literal? hv hv' with ⟨v', hlit', hrel'⟩
    rcases ih hrel' hw with ⟨r', hr', hrel''⟩
    have hsuffix : v <:+ '"' :: u := (literal?_suffix hv).trans (List.suffix_cons _ _)
    have hconsumed := (Respaced.char '"' hrel).consumed_eq hrel' hsuffix
    refine ⟨r', ?_, hrel''⟩
    rw [labels_literal ht' hlit', hr', hconsumed.1]
    rfl
  | case6 => cases hl
  | case7 => cases hl
  | case8 n t c u ht hbrace hquote name v hi ls' w hw ih =>
    cases hl
    have hv := Nat.le_trans hr (Nat.le_of_lt (labels_length hw))
    rcases h.skipTrivia_identifier ht hi hv with ⟨u', v', ht', hi', hrel⟩
    rcases ih hrel hw with ⟨r', hr', hrel'⟩
    refine ⟨r', ?_, hrel'⟩
    rw [labels_identifier ht' hi', hr']
    rfl

/-! ## Items -/

/-- What follows the name that begins an item. -/
theorem afterName {name r : List Char} {x : Step} (h : Respaced False rest rest' t t')
    (hx : Grammar.afterName name t = .ok (x, r)) (hr : rest.length ≤ r.length)
    (hends : ∀ r', Respaced False rest rest' r r' → EndsExpression r')
    (hline : x.ClosesHeredoc r → EndsLineAt rest rest' r) :
    ∃ r', Grammar.afterName name t' = .ok (x, r') ∧ Respaced False rest rest' r r' := by
  rcases afterName_cases hx with ⟨u, raw, rfl, ht, hu, hscan⟩ | ⟨ls, rfl, hl⟩
  · have hraw : rest.length ≤ (raw ++ r).length := by
      rw [List.length_append]
      omega
    have hskip : skipTrivia (raw ++ r) = raw ++ r := by
      rw [← hu, skipTrivia_skipTrivia]
    rcases scan_front hskip hscan with ⟨c, v, hv, hc, -, hslash⟩
    have hlt : rest.length < (raw ++ r).length := Nat.lt_of_le_of_lt hr (scan_length hscan)
    have hle : rest.length ≤ u.length := by
      have hlength := skipTrivia_length_le u
      rw [hu] at hlength
      omega
    rcases h.skipTrivia_front ht rfl (by decide) hle with ⟨u', ht', hrel⟩
    have hle' : rest.length ≤ v.length := by
      rw [hv, List.length_cons] at hlt
      omega
    rcases hrel.skipTrivia_front (hu.trans hv) (isSpace_of_visible hc) hslash hle' with
      ⟨v', hu', hrel'⟩
    have hvalue : Respaced False rest rest' (raw ++ r) (c :: v') := by
      rw [hv]
      exact .char c hrel'
    rcases State.run_respaced marked_initial hvalue hscan hr (fun r' hr' => (hends r' hr').endsAt _)
      hline with ⟨r', hscan', hr'⟩
    rcases hvalue.consumed_eq hr' (State.run_suffix hscan) with ⟨-, happ⟩
    rw [consumed_append] at happ
    rw [happ] at hu' hscan'
    exact ⟨r', afterName_of_assign ht' hu' hscan', hr'⟩
  · rcases h.labels hl hr with ⟨r', hl', hrel⟩
    exact ⟨r', afterName_of_labels name (head?_of_labels hl') hl', hrel⟩

/-- The next step, if it is read before the place. -/
theorem step? {depth : Nat} {r : List Char} {x : Step} (h : Respaced False rest rest' t t')
    (hx : Grammar.step? depth t = .ok (some (x, r))) (hr : rest.length ≤ r.length)
    (hends : ∀ r', Respaced False rest rest' r r' → EndsExpression r')
    (hline : x.ClosesHeredoc r → EndsLineAt rest rest' r) :
    ∃ r', Grammar.step? depth t' = .ok (some (x, r')) ∧ Respaced False rest rest' r r' := by
  rcases step?_cases hx with ⟨hdepth, rfl, ht⟩ | ⟨c, u, name, v, ht, hi, hafter⟩
  · rcases h.skipTrivia_front ht rfl (by decide) hr with ⟨r', ht', hrel⟩
    exact ⟨r', step?_of_closeBrace hdepth ht', hrel⟩
  · have hv := Nat.le_trans hr (Nat.le_of_lt (afterName_length hafter))
    rcases h.skipTrivia_identifier ht hi hv with ⟨u', v', ht', hi', hrel⟩
    rcases hrel.afterName hafter hr hends hline with ⟨r', hafter', hrel'⟩
    refine ⟨r', ?_, hrel'⟩
    rw [step?_identifier ht' hi', hafter']
    rfl

end Respaced

end HclQuery.Grammar
