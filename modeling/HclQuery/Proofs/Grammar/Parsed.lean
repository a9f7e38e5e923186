import HclQuery.Proofs.Grammar.Concrete

/-!
# What a text is read as

The steps of a text set names to expressions and open blocks of a name, and the tree that they are
built to has no other items.

Main definitions:

- {lit}`Step.WellFormed`: steps that set names to expressions or open blocks of a name.
- {lit}`ItemWellFormed`: items with names and expressions all the way down.

Main results:

- Theorem {lit}`skipTrivia_skipTrivia`: after skipping there is nothing to skip.
- Theorem {lit}`steps_wellFormed`: the steps of a text are well formed.
- Theorem {lit}`parse_wellFormed`: the items of a text are well formed.
-/

namespace HclQuery.Grammar

open Text HclQuery.Tree

/-! ## Skipping -/

mutual

/-- After skipping there is nothing to skip. -/
theorem skipTrivia_skipTrivia (t : List Char) : skipTrivia (skipTrivia t) = skipTrivia t := by
  cases t with
  | nil => rw [skipTrivia, skipTrivia]
  | cons c t =>
    by_cases hspace : isSpace c = true
    · rw [skipTrivia_space hspace, skipTrivia_skipTrivia t]
    · by_cases hhash : c = '#'
      · have hline : skipTrivia (c :: t) = skipLine t := by
          rw [skipTrivia.eq_def]
          simp [hhash, isSpace]
        rw [hline, skipTrivia_skipLine t]
      · by_cases hslash : c = '/'
        · subst hslash
          cases t with
          | nil => decide
          | cons d u =>
            by_cases hline : d = '/'
            · subst hline
              have hskip : skipTrivia ('/' :: '/' :: u) = skipLine u := by
                rw [skipTrivia.eq_def]
                simp [isSpace]
              rw [hskip, skipTrivia_skipLine u]
            · by_cases hblock : d = '*'
              · subst hblock
                have hskip : skipTrivia ('/' :: '*' :: u) = skipBlock ('/' :: '*' :: u) u := by
                  rw [skipTrivia.eq_def]
                  simp [isSpace]
                rcases skipTrivia_skipBlock ('/' :: '*' :: u) u with hwhole | hend
                · rw [hskip, hwhole, hskip, hwhole]
                · rw [hskip, hend]
              · have hskip : skipTrivia ('/' :: d :: u) = '/' :: d :: u := by
                  rw [skipTrivia.eq_def]
                  simp [isSpace, hline, hblock]
                rw [hskip, hskip]
        · have hskip := skipTrivia_cons (by simpa using hspace) hhash hslash t
          rw [hskip, hskip]

/-- After a line comment all trivia has been skipped. -/
theorem skipTrivia_skipLine (t : List Char) : skipTrivia (skipLine t) = skipLine t := by
  cases t with
  | nil => rw [skipLine, skipTrivia]
  | cons c t =>
    rw [skipLine]
    by_cases hnewline : c = '\n'
    · rw [if_pos hnewline, skipTrivia_skipTrivia t]
    · by_cases hzero : c = '\x00'
      · rw [if_neg hnewline, if_pos hzero, hzero]
        exact skipTrivia_cons rfl (by decide) (by decide) t
      · rw [if_neg hnewline, if_neg hzero, skipTrivia_skipLine t]

/-- After a block comment all trivia has been skipped, unless the comment is not closed. -/
theorem skipTrivia_skipBlock (whole t : List Char) :
    skipBlock whole t = whole ∨ skipTrivia (skipBlock whole t) = skipBlock whole t := by
  cases t with
  | nil => exact .inl (by rw [skipBlock])
  | cons c t =>
    rw [skipBlock.eq_def]
    by_cases hzero : c = '\x00'
    · simp [hzero]
    · by_cases hstar : c = '*'
      · cases t with
        | nil => simp [hstar]
        | cons d u =>
          by_cases hslash : d = '/'
          · simp only [hstar, hslash, if_true]
            exact .inr (skipTrivia_skipTrivia u)
          · simp only [hstar, hslash, if_false]
            exact skipTrivia_skipBlock whole (d :: u)
      · simp only [hzero, hstar, if_false]
        exact skipTrivia_skipBlock whole t

end

/-! ## Steps -/

/-- A step that sets a name to an expression, or opens a block of a name. -/
def Step.WellFormed : Step → Prop
  | set name raw => IsName name ∧ IsExpression raw
  | enter kind _ => IsName kind
  | leave => True

/-- After a well-formed name stands a well-formed step. -/
theorem afterName_wellFormed {name t r : List Char} {x : Step} (hname : IsName name)
    (h : afterName name t = .ok (x, r)) : x.WellFormed := by
  unfold afterName at h
  split at h
  · next u ht =>
    simp only at h
    split at h
    · next w hscan =>
      -- What the expression takes is the text in front of what is left.
      rcases State.run_suffix hscan with ⟨v, hv⟩
      have hskip := skipTrivia_skipTrivia u
      rw [← hv] at h hskip hscan
      obtain ⟨rfl, -⟩ : _ ∧ _ := by simpa using h
      rw [consumed_append]
      exact ⟨hname, isExpression_of_scan hskip hscan⟩
    · cases h
  · split at h
    · obtain ⟨rfl, -⟩ : _ ∧ _ := by simpa using h
      exact hname
    · cases h

/-- Every step that is read is well-formed. -/
theorem step?_wellFormed {depth : Nat} {t r : List Char} {x : Step}
    (h : step? depth t = .ok (some (x, r))) : x.WellFormed := by
  unfold step? at h
  split at h
  · split at h <;> cases h
  · split at h
    · split at h
      · cases h
      · obtain ⟨rfl, -⟩ : _ ∧ _ := by simpa using h
        trivial
    · split at h
      · cases h
      · next hidentifier =>
        split at h
        · next hafter =>
          obtain rfl : _ = (x, r) := by simpa using h
          exact afterName_wellFormed (isName_of_identifier? hidentifier) hafter
        · cases h

/-- The steps of a text are well formed. -/
theorem steps_wellFormed {depth : Nat} {t : List Char} {xs : List Step}
    (h : steps depth t = .ok xs) : ∀ x ∈ xs, x.WellFormed := by
  fun_induction steps depth t generalizing xs with
  | case1 => cases h
  | case2 =>
    cases h
    exact List.forall_mem_nil _
  | case3 => cases h
  | case4 depth t x r hstep ys hys ih =>
    cases h
    intro y hy
    rcases List.mem_cons.1 hy with rfl | hy
    · exact step?_wellFormed hstep
    · exact ih hys y hy

/-! ## Items -/

/-- An item with names and expressions all the way down. -/
inductive ItemWellFormed : Item → Prop where
  | attr {a : Attribute} (hname : IsName a.name.toList) (hvalue : IsExpression a.raw.toList) :
      ItemWellFormed (.attr a)
  | block {kind : String} {labels : List String} {body : Body} (hkind : IsName kind.toList)
      (hbody : ∀ i ∈ body, ItemWellFormed i) : ItemWellFormed (.block kind labels body)
  | blank : ItemWellFormed .blank

/-- An open block with a name and only well formed items before it. -/
structure Opened.WellFormed (o : Opened) : Prop where
  kind : IsName o.kind.toList
  before : ∀ i ∈ o.before, ItemWellFormed i

/-- Each step adds a well formed item to those that are open, or opens a block. -/
theorem buildFrom_wellFormed {opened : List Opened} {items : List Item} {xs : List Step}
    (hopened : ∀ o ∈ opened, o.WellFormed) (hitems : ∀ i ∈ items, ItemWellFormed i)
    (hxs : ∀ x ∈ xs, x.WellFormed) : ∀ i ∈ buildFrom opened items xs, ItemWellFormed i := by
  induction xs generalizing opened items with
  | nil =>
    intro i hi
    exact hitems i (List.mem_reverse.1 hi)
  | cons x xs ih =>
    have hx := hxs x (List.mem_cons_self ..)
    have htail : ∀ y ∈ xs, y.WellFormed := fun y hy => hxs y (List.mem_cons_of_mem _ hy)
    cases x with
    | set name raw =>
      refine ih hopened ?_ htail
      intro i hi
      rcases List.mem_cons.1 hi with rfl | hi
      · exact .attr (by rw [String.toList_ofList]; exact hx.1)
          (by rw [String.toList_ofList]; exact hx.2)
      · exact hitems i hi
    | enter kind labels =>
      refine ih ?_ (List.forall_mem_nil _) htail
      intro o ho
      rcases List.mem_cons.1 ho with rfl | ho
      · exact ⟨by rw [String.toList_ofList]; exact hx, hitems⟩
      · exact hopened o ho
    | leave =>
      cases opened with
      | nil => exact ih hopened hitems htail
      | cons o os =>
        have ho := hopened o (List.mem_cons_self ..)
        refine ih (fun p hp => hopened p (List.mem_cons_of_mem _ hp)) ?_ htail
        intro i hi
        rcases List.mem_cons.1 hi with rfl | hi
        · exact .block ho.kind fun j hj => hitems j (List.mem_reverse.1 hj)
        · exact ho.before i hi

/-- The items of a text are well formed. -/
theorem parse_wellFormed {t : List Char} {b : Body} (h : parse t = .ok b) :
    ∀ i ∈ b, ItemWellFormed i := by
  by_cases hbrace : (skipTrivia (dropMark t)).head? = some '{'
  · rcases List.head?_eq_some_iff.1 hbrace with ⟨v, hv⟩
    rw [parse_of_brace hv, parseObject] at h
    split at h
    · cases h
    · split at h
      · cases h
        exact List.forall_mem_nil _
      · cases h
  · rw [parse_of_not_brace hbrace] at h
    rcases hsteps : steps 0 (dropMark t) with e | xs
    · rw [hsteps] at h
      cases h
    · rw [hsteps] at h
      cases h
      exact buildFrom_wellFormed (List.forall_mem_nil _) (List.forall_mem_nil _)
        (steps_wellFormed hsteps)

end HclQuery.Grammar
