import HclQuery.Grammar.Source
import HclQuery.Layout.Render
import HclQuery.Proofs.Grammar.Reindented
import HclQuery.Proofs.Label

/-!
# Reading items

The lines of the layout are read item by item: an attribute sets its re-indented value, a header
opens a block with its labels and a footer closes one.  A value ends in front of its newline because
an item begins after it.

Main definitions:

- {lit}`IsName`: the text of one identifier.
- {lit}`BeginsItem`: texts that go on with an item or with the end of a block.

Main results:

- Theorem {lit}`labels_quoted`: the labels of a header are read back.
- Theorem {lit}`steps_renderAttributes`: the steps of attributes.
- Theorem {lit}`steps_header`: the step of a line that opens a block.
- Theorem {lit}`steps_footer`: the step of a line that closes a block.
-/

namespace HclQuery.Grammar

open Text Layout

/-- The text of one identifier. -/
def IsName (n : List Char) : Prop :=
  identifier? n = some (n, [])

/-- A text that goes on with an item or with the end of a block. -/
def BeginsItem (t : List Char) : Prop :=
  ∃ c u, skipTrivia t = c :: u ∧ (isNameStart c = true ∨ c = '}')

/-! ## Names -/

/-- The longest name of a text is read again at the end of a text and in front of a blank. -/
theorem nameRest_nameRest (t : List Char) {u : List Char} (hu : u = [] ∨ u.head? = some ' ') :
    nameRest ((nameRest t).1 ++ u) = ((nameRest t).1, u) := by
  have hend : nameRest u = ([], u) := by
    have hblank : isNamePart ' ' = false := by decide
    rcases hu with rfl | hu
    · rfl
    · rcases List.head?_eq_some_iff.1 hu with ⟨v, rfl⟩
      simp [nameRest_cons, hblank]
  fun_induction nameRest t with
  | case1 => exact hend
  | case2 c hc => simp [nameRest_cons, hc, hend]
  | case3 c hc => exact hend
  | case4 c d t hc name rest hname ih =>
    rw [hname] at ih
    simp [nameRest_cons c, hc, ih]
  | case5 c d t hc hcolon name rest hname ih =>
    rw [hname] at ih
    rcases hcolon with ⟨rfl, rfl⟩
    simp [nameRest_cons ':', hc, ih]
  | case6 c d t hc hcolon => exact hend

/-- An identifier that was read is a name. -/
theorem isName_of_identifier? {t name rest : List Char}
    (h : identifier? t = some (name, rest)) : IsName name := by
  cases t with
  | nil => cases h
  | cons c t =>
    rw [identifier?] at h
    by_cases hc : isNameStart c = true
    · rw [if_pos hc] at h
      obtain ⟨rfl, rfl⟩ : _ ∧ _ := by simpa using h
      have hname := nameRest_nameRest t (u := []) (.inl rfl)
      rw [List.append_nil] at hname
      rw [IsName, identifier?, if_pos hc, hname]
    · rw [if_neg hc] at h
      cases h

namespace IsName

variable {n : List Char}

theorem front (h : IsName n) : ∃ c u, n = c :: u ∧ isNameStart c = true := by
  cases n with
  | nil => cases h
  | cons c n =>
    rw [IsName, identifier?] at h
    by_cases hc : isNameStart c = true
    · exact ⟨c, n, rfl, hc⟩
    · rw [if_neg hc] at h
      cases h

/-- A name is read in front of a blank. -/
theorem identifier?_append (h : IsName n) {t : List Char} (ht : t.head? = some ' ') :
    identifier? (n ++ t) = some (n, t) := by
  rcases h.front with ⟨c, u, rfl, hc⟩
  rw [IsName, identifier?, if_pos hc] at h
  obtain ⟨hfst, -⟩ : (nameRest u).1 = u ∧ _ := by simpa using h
  have hname := nameRest_nameRest u (.inr ht)
  rw [hfst] at hname
  rw [List.cons_append, identifier?, if_pos hc, hname]

end IsName

/-- The characters that begin a name begin nothing else. -/
theorem skipTrivia_name {c : Char} (hc : isNameStart c = true) (t : List Char) :
    skipTrivia (c :: t) = c :: t := by
  have hne : ∀ d, isNameStart d = false → c ≠ d := by
    rintro d hd rfl
    rw [hc] at hd
    cases hd
  exact skipTrivia_cons (isSpace_of_visible (visible_of_isNameStart hc))
    (hne '#' (by decide)) (hne '/' (by decide)) t

/-- In front of a name there is nothing to skip. -/
theorem IsName.skipTrivia_append {n : List Char} (h : IsName n) (t : List Char) :
    skipTrivia (n ++ t) = n ++ t := by
  rcases h.front with ⟨c, u, rfl, hc⟩
  exact skipTrivia_name hc _

/-! ## The beginning of an item -/

/-- No expression goes on where an item begins on the next line. -/
theorem BeginsItem.endsExpression {t : List Char} (h : BeginsItem t) :
    EndsExpression ('\n' :: t) := by
  rcases h with ⟨c, u, hskip, hc⟩
  have hnewline : skipTrivia ('\n' :: t) = c :: u := by
    rw [← hskip, skipTrivia.eq_def]
    simp [isSpace]
  rcases hc with hc | rfl
  · exact endsExpression_of_isNameStart hnewline hc
  · exact endsExpression_of_closeBrace hnewline

theorem spaces_replicate (n : Nat) : ∀ c ∈ List.replicate n ' ', isSpace c = true := by
  intro c hc
  rw [List.eq_of_mem_replicate hc]
  rfl

/-- An indentation is skipped. -/
theorem skipTrivia_indent (depth : Nat) (t : List Char) :
    skipTrivia (indent depth ++ t) = skipTrivia t :=
  skipTrivia_append (spaces_indent depth) t

theorem skipTrivia_space {c : Char} (hc : isSpace c = true) (t : List Char) :
    skipTrivia (c :: t) = skipTrivia t := by
  rw [skipTrivia.eq_def]
  simp [hc]

/-! ## Labels -/

/-- There are no labels in front of the brace. -/
theorem labels_of_brace {t u : List Char} (h : skipTrivia t = '{' :: u) (count : Nat) :
    labels count t = .ok ([], u) := by
  rw [labels]
  split
  · next heq =>
    rw [h] at heq
    cases heq
  · next c v heq =>
    rw [h] at heq
    cases heq
    rfl

/-- A label in quotes and the labels after it. -/
theorem labels_literal {t u v : List Char} (h : skipTrivia t = '"' :: u)
    (hu : literal? u = some v) (count : Nat) :
    labels count t = (labels (count + 1) v).map fun r =>
      (Label.unquote (String.ofList (consumed ('"' :: u) v)) :: r.1, r.2) := by
  rw [labels]
  split
  · next heq =>
    rw [h] at heq
    cases heq
  · next c x heq =>
    rw [h] at heq
    cases heq
    rw [if_neg (by decide), if_pos rfl]
    split
    · next hnone =>
      rw [hu] at hnone
      cases hnone
    · next y hy =>
      rw [hu] at hy
      cases hy
      cases labels (count + 1) v <;> rfl

/-- The labels of a header are read back. -/
theorem labels_quoted (ls : List String) (count : Nat) (rest : List Char) :
    labels count (ls.flatMap (fun l => ' ' :: (Label.quote l).toList) ++ ' ' :: '{' :: rest) =
      .ok (ls, rest) := by
  induction ls generalizing count with
  | nil =>
    apply labels_of_brace
    rw [List.flatMap_nil, List.nil_append, skipTrivia_space rfl]
    exact skipTrivia_cons rfl (by decide) (by decide) rest
  | cons l ls ih =>
    rw [List.flatMap_cons, List.append_assoc, Label.toList_quote]
    have hskip : skipTrivia (' ' :: '"' :: (Label.escape l.toList ++ ['"']) ++
        (ls.flatMap (fun l => ' ' :: (Label.quote l).toList) ++ ' ' :: '{' :: rest)) =
        '"' :: (Label.escape l.toList ++ '"' ::
          (ls.flatMap (fun l => ' ' :: (Label.quote l).toList) ++ ' ' :: '{' :: rest)) := by
      rw [List.cons_append, skipTrivia_space rfl, List.cons_append, List.append_assoc]
      exact skipTrivia_cons rfl (by decide) (by decide) _
    rw [labels_literal hskip (literal?_escape l.toList _), ih (count + 1), List.append_cons,
      ← List.cons_append, consumed_append, ← Label.toList_quote, String.ofList_toList,
      Label.unquote_quote]
    rfl

/-! ## Steps -/

/-- A step is followed by the steps of the rest, at the depth it leads to. -/
theorem steps_of_step? {depth : Nat} {t r : List Char} {x : Step}
    (h : step? depth t = .ok (some (x, r))) :
    steps depth t = (steps (x.depth depth) r).map (x :: ·) := by
  rw [steps]
  split
  · next heq =>
    rw [h] at heq
    cases heq
  · next heq =>
    rw [h] at heq
    cases heq
  · next heq =>
    rw [h] at heq
    cases heq
    cases steps (x.depth depth) r <;> rfl

/-- At the end of a text there are no steps. -/
theorem steps_of_end {depth : Nat} {t : List Char} (h : step? depth t = .ok none) :
    steps depth t = .ok [] := by
  rw [steps]
  split
  · next heq =>
    rw [h] at heq
    cases heq
  · rfl
  · next heq =>
    rw [h] at heq
    cases heq

/-- Where there is no next step, there are no steps. -/
theorem steps_of_error {depth : Nat} {t : List Char} {e : Stuck} (h : step? depth t = .error e) :
    steps depth t = .error e := by
  rw [steps]
  split
  · next heq =>
    rw [h] at heq
    cases heq
    rfl
  · next heq =>
    rw [h] at heq
    cases heq
  · next heq =>
    rw [h] at heq
    cases heq

/-- Steps begin at the first token. -/
theorem steps_congr {t t' : List Char} (h : skipTrivia t = skipTrivia t') (depth : Nat) :
    steps depth t = steps depth t' := by
  have hstep : step? depth t = step? depth t' := by
    rw [step?, step?, h]
  rcases hx : step? depth t' with e | _ | ⟨x, r⟩
  · rw [steps_of_error hx, steps_of_error (hstep.trans hx)]
  · rw [steps_of_end hx, steps_of_end (hstep.trans hx)]
  · rw [steps_of_step? hx, steps_of_step? (hstep.trans hx)]

/-- A newline in front of a text changes none of its steps. -/
theorem steps_newline (depth : Nat) (t : List Char) :
    steps depth ('\n' :: t) = steps depth t :=
  steps_congr (skipTrivia_space rfl t) depth

/-- The step of an item that begins with a name. -/
theorem step?_of_name {t u r : List Char} {name : List Char} {x : Step}
    (ht : skipTrivia t = name ++ u) (hname : IsName name) (hu : u.head? = some ' ')
    (hafter : afterName name u = .ok (x, r)) (depth : Nat) :
    step? depth t = .ok (some (x, r)) := by
  have hidentifier := hname.identifier?_append hu
  rcases hname.front with ⟨c, v, rfl, hc⟩
  have hbrace : c ≠ '}' := by
    rintro rfl
    have hnot : isNameStart '}' = false := by decide
    rw [hnot] at hc
    cases hc
  rw [step?, ht]
  simp only [List.cons_append] at hidentifier ⊢
  rw [if_neg hbrace, hidentifier]
  simp only [hafter]

/-- After a name, an equals sign and an expression set an attribute. -/
theorem afterName_of_assign {name t u v w : List Char} (ht : skipTrivia t = '=' :: u)
    (hu : skipTrivia u = v ++ w) (hscan : scan (v ++ w) = .ok w) :
    afterName name t = .ok (.set name v, w) := by
  rw [afterName, ht]
  simp only [hu, hscan, consumed_append]

/-- After a name, labels and a brace open a block. -/
theorem afterName_of_labels (name : List Char) {t v : List Char} {ls : List String}
    (ht : (skipTrivia t).head? ≠ some '=') (h : labels 0 t = .ok (ls, v)) :
    afterName name t = .ok (.enter name ls, v) := by
  rw [afterName]
  split
  · next heq =>
    rw [heq] at ht
    exact absurd rfl ht
  · rw [h]

/-- The step of an attribute. -/
theorem steps_renderAttribute {a : Tree.Attribute} {depth : Nat} {rest : List Char}
    (hname : IsName a.name.toList) (hvalue : IsExpression (reindent depth a.raw.toList))
    (hrest : BeginsItem rest) (level width : Nat) :
    steps level (renderAttribute depth width a ++ rest) =
      (steps level rest).map (.set a.name.toList (reindent depth a.raw.toList) :: ·) := by
  have htext : renderAttribute depth width a ++ rest =
      indent depth ++ (a.name.toList ++ (List.replicate (width - a.name.length) ' ' ++
        ' ' :: '=' :: ' ' :: (reindent depth a.raw.toList ++ '\n' :: rest))) := by
    simp [renderAttribute]
  have hskip : skipTrivia (renderAttribute depth width a ++ rest) =
      a.name.toList ++ (List.replicate (width - a.name.length) ' ' ++
        ' ' :: '=' :: ' ' :: (reindent depth a.raw.toList ++ '\n' :: rest)) := by
    rw [htext, skipTrivia_indent, hname.skipTrivia_append]
  have hassign : skipTrivia (List.replicate (width - a.name.length) ' ' ++
      ' ' :: '=' :: ' ' :: (reindent depth a.raw.toList ++ '\n' :: rest)) =
      '=' :: ' ' :: (reindent depth a.raw.toList ++ '\n' :: rest) := by
    rw [skipTrivia_append (spaces_replicate _), skipTrivia_space rfl]
    exact skipTrivia_cons rfl (by decide) (by decide) _
  have hafter : afterName a.name.toList (List.replicate (width - a.name.length) ' ' ++
      ' ' :: '=' :: ' ' :: (reindent depth a.raw.toList ++ '\n' :: rest)) =
      .ok (.set a.name.toList (reindent depth a.raw.toList), '\n' :: rest) := by
    refine afterName_of_assign hassign ?_ (hvalue.scan_append hrest.endsExpression)
    rw [skipTrivia_space rfl, hvalue.skipTrivia_append]
  have hpadding : (List.replicate (width - a.name.length) ' ' ++
      ' ' :: '=' :: ' ' :: (reindent depth a.raw.toList ++ '\n' :: rest)).head? = some ' ' := by
    cases width - a.name.length <;> rfl
  rw [steps_of_step? (step?_of_name hskip hname hpadding hafter level), Step.depth, steps_newline]

/-- The step of a line that opens a block. -/
theorem steps_header {kind : String} (hkind : IsName kind.toList) (labels : List String)
    (level depth : Nat) (rest : List Char) :
    steps level (header depth kind labels ++ rest) =
      (steps (level + 1) rest).map (.enter kind.toList labels :: ·) := by
  have hskip : skipTrivia (header depth kind labels ++ rest) =
      kind.toList ++ (labels.flatMap (fun l => ' ' :: (Label.quote l).toList) ++
        ' ' :: '{' :: '\n' :: rest) := by
    simp only [header, List.append_assoc]
    rw [skipTrivia_indent, hkind.skipTrivia_append]
    rfl
  have hfront : (labels.flatMap (fun l => ' ' :: (Label.quote l).toList) ++
      ' ' :: '{' :: '\n' :: rest).head? = some ' ' := by
    cases labels <;> rfl
  have hassign : (skipTrivia (labels.flatMap (fun l => ' ' :: (Label.quote l).toList) ++
      ' ' :: '{' :: '\n' :: rest)).head? ≠ some '=' := by
    cases labels with
    | nil =>
      rw [List.flatMap_nil, List.nil_append, skipTrivia_space rfl,
        skipTrivia_cons rfl (by decide) (by decide)]
      simp
    | cons l ls =>
      rw [List.flatMap_cons, List.append_assoc, List.cons_append, skipTrivia_space rfl,
        Label.toList_quote, List.cons_append, skipTrivia_cons rfl (by decide) (by decide)]
      simp
  have hafter := afterName_of_labels kind.toList hassign
    (labels_quoted labels 0 ('\n' :: rest))
  rw [steps_of_step? (step?_of_name hskip hkind hfront hafter level), Step.depth, steps_newline]

/-- The step of a line that closes a block. -/
theorem steps_footer (level depth : Nat) (rest : List Char) :
    steps (level + 1) (footer depth ++ rest) = (steps level rest).map (.leave :: ·) := by
  have hskip : skipTrivia (footer depth ++ rest) = '}' :: '\n' :: rest := by
    simp only [footer, List.append_assoc]
    rw [skipTrivia_indent]
    exact skipTrivia_cons rfl (by decide) (by decide) _
  have hstep : step? (level + 1) (footer depth ++ rest) = .ok (some (.leave, '\n' :: rest)) := by
    rw [step?, hskip]
    rfl
  rw [steps_of_step? hstep, Step.depth, steps_newline, Nat.add_sub_cancel]

/-! ## What the lines begin with -/

/-- An indented name begins an item. -/
theorem beginsItem_name {n : List Char} (hn : IsName n) (depth : Nat) (t : List Char) :
    BeginsItem (indent depth ++ (n ++ t)) := by
  rcases hn.front with ⟨c, u, rfl, hc⟩
  exact ⟨c, u ++ t, by rw [skipTrivia_indent, List.cons_append, skipTrivia_name hc], .inl hc⟩

/-- The line of an attribute begins an item. -/
theorem beginsItem_renderAttribute {a : Tree.Attribute} (ha : IsName a.name.toList)
    (depth width : Nat) (rest : List Char) :
    BeginsItem (renderAttribute depth width a ++ rest) := by
  simp only [renderAttribute, List.append_assoc]
  exact beginsItem_name ha depth _

/-- The header of a block begins an item. -/
theorem beginsItem_header {kind : String} (hkind : IsName kind.toList) (labels : List String)
    (depth : Nat) (rest : List Char) : BeginsItem (header depth kind labels ++ rest) := by
  simp only [header, List.append_assoc]
  exact beginsItem_name hkind depth _

/-- The line that closes a block begins like what may follow an item. -/
theorem beginsItem_footer (depth : Nat) (rest : List Char) :
    BeginsItem (footer depth ++ rest) := by
  simp only [footer, List.append_assoc]
  refine ⟨'}', '\n' :: rest, ?_, .inr rfl⟩
  rw [skipTrivia_indent]
  exact skipTrivia_cons rfl (by decide) (by decide) _

/-! ## Attributes one after the other -/

/-- Lines of attributes begin an item, or what follows them. -/
theorem beginsItem_renderAttributes {depth : Nat} {ps : List (Nat × Tree.Attribute)}
    {rest : List Char} (hname : ∀ p ∈ ps, IsName p.2.name.toList) (hrest : BeginsItem rest) :
    BeginsItem ((ps.flatMap fun p => renderAttribute depth p.1 p.2) ++ rest) := by
  cases ps with
  | nil => exact hrest
  | cons p ps =>
    rw [List.flatMap_cons, List.append_assoc]
    exact beginsItem_renderAttribute (hname p (List.mem_cons_self ..)) depth p.1 _

/-- The steps of attributes. -/
theorem steps_renderAttributes {depth : Nat} {ps : List (Nat × Tree.Attribute)}
    {rest : List Char} (hname : ∀ p ∈ ps, IsName p.2.name.toList)
    (hvalue : ∀ p ∈ ps, IsExpression (reindent depth p.2.raw.toList)) (hrest : BeginsItem rest)
    (level : Nat) :
    steps level ((ps.flatMap fun p => renderAttribute depth p.1 p.2) ++ rest) =
      (steps level rest).map
        ((ps.map fun p => .set p.2.name.toList (reindent depth p.2.raw.toList)) ++ ·) := by
  induction ps with
  | nil => cases hsteps : steps level rest <;> simp [hsteps, Except.map]
  | cons p ps ih =>
    have hname' : ∀ q ∈ ps, IsName q.2.name.toList :=
      fun q hq => hname q (List.mem_cons_of_mem _ hq)
    rw [List.flatMap_cons, List.append_assoc,
      steps_renderAttribute (hname p (List.mem_cons_self ..)) (hvalue p (List.mem_cons_self ..))
        (beginsItem_renderAttributes hname' hrest),
      ih hname' fun q hq => hvalue q (List.mem_cons_of_mem _ hq)]
    cases steps level rest <;> rfl

end HclQuery.Grammar
