import HclQuery.Proofs.Grammar.Continued

/-!
# Files one after the other

Files whose last line is complete may be put one after the other: nothing of a file runs into the
next one.  The files are read together just when no file after the first begins with the mark and
the files besides one that is an object hold nothing but blanks and comments.  Their items then
stand in their order.

Main definitions:

- {lit}`Balanced`: steps that close what they open and the blocks they begin in.
- {lit}`IsFile`: the text of a file without its mark, with its tree.
- {lit}`Fit`: parts of a joined text that are a file together.
- {lit}`Joinable`: texts that are files when they are put one after the other.

Main results:

- Theorem {lit}`steps_append`: the steps of a text and of what follows it.
- Theorem {lit}`buildFrom_append`: the items of steps and of what follows them.
- Theorem {lit}`isFile_parts`: which parts are a file together, and the file's items.
- Theorem {lit}`parse_flatMap`: which files are read one after the other.
-/

namespace HclQuery.Grammar

open Text HclQuery.Tree

/-! ## The end of the last line -/

/-- What is left of a text ends with its last character. -/
theorem getLast?_of_suffix {r t : List Char} (h : r <:+ t) (hr : r ≠ []) :
    r.getLast? = t.getLast? := by
  rcases h with ⟨a, rfl⟩
  rw [List.getLast?_append_of_ne_nil a hr]

/-- Something is left after a visible character of lines. -/
theorem getLast?_of_visible {c : Char} {r t : List Char} (ht : t.getLast? = some '\n')
    (h : c :: r <:+ t) (hc : isSpace c = false) : r.getLast? = some '\n' := by
  have hlast := (getLast?_of_suffix h (List.cons_ne_nil c r)).trans ht
  refine getLast?_of_cons hlast ?_
  rintro rfl
  cases hc

/-- The labels of a block end with its brace. -/
theorem labels_ends {count : Nat} {t r : List Char} {ls : List String}
    (h : labels count t = .ok (ls, r)) : '{' :: r <:+ t := by
  fun_induction labels count t generalizing ls with
  | case1 => cases h
  | case2 n t u ht =>
    cases h
    rw [← ht]
    exact skipTrivia_suffix t
  | case3 => cases h
  | case4 => cases h
  | case5 n t u v hv ls' w hw ht hne ih =>
    cases h
    have hu : '"' :: u <:+ t := ht ▸ skipTrivia_suffix t
    exact (ih hw).trans ((literal?_suffix hv).trans ((List.suffix_cons _ _).trans hu))
  | case6 => cases h
  | case7 => cases h
  | case8 n t c u ht hbrace hquote name v hi ls' w hw ih =>
    cases h
    have hu : c :: u <:+ t := ht ▸ skipTrivia_suffix t
    exact (ih hw).trans (List.IsSuffix.trans ⟨name, identifier?_append hi⟩ hu)

/-- A step ends in a visible character. -/
theorem step?_ends {depth : Nat} {t r : List Char} {x : Step}
    (h : step? depth t = .ok (some (x, r))) : ∃ c, c :: r <:+ t ∧ isBlank c = false := by
  rcases step?_cases h with ⟨-, -, ht⟩ | ⟨c, u, name, v, ht, hi, hafter⟩
  · exact ⟨'}', ht ▸ skipTrivia_suffix t, rfl⟩
  · have hv : v <:+ t :=
      List.IsSuffix.trans ⟨name, identifier?_append hi⟩ (ht ▸ skipTrivia_suffix t)
    rcases afterName_cases hafter with ⟨w, raw, -, hw, hraw, hscan⟩ | ⟨ls, -, hl⟩
    · have hne : raw ++ r ≠ r := by
        intro heq
        have hlt := scan_length hscan
        rw [heq] at hlt
        exact Nat.lt_irrefl _ hlt
      rcases State.run_ends marked_initial hscan hne with ⟨a, d, had, hd⟩
      have hdr : d :: r <:+ w := List.IsSuffix.trans ⟨a, had.symm⟩ (hraw ▸ skipTrivia_suffix w)
      have hwv : w <:+ v := (List.suffix_cons '=' w).trans (hw ▸ skipTrivia_suffix v)
      exact ⟨d, hdr.trans (hwv.trans hv), hd⟩
    · exact ⟨'{', (labels_ends hl).trans hv, rfl⟩

/-! ## Texts in front of others -/

variable {t r B : List Char}

/-- A text that ends with a newline, with other text after it. -/
theorem respaced_append (ht : t.getLast? = some '\n') (B : List Char) :
    Respaced False ['\n'] ('\n' :: B) t (t ++ B) := by
  rcases List.getLast?_eq_some_iff.1 ht with ⟨v, rfl⟩
  rw [List.append_assoc]
  exact .refl ['\n'] (separates_newline B) v

/-- What is left of the text alone is left with the other text after it. -/
theorem Respaced.eq_append_lines {r' : List Char} (hr : r.getLast? = some '\n')
    (h : Respaced False ['\n'] ('\n' :: B) r r') : r' = r ++ B := by
  rcases List.getLast?_eq_some_iff.1 hr with ⟨v, rfl⟩
  rw [h.eq_append, List.append_assoc]
  rfl

/-- A text that ends with a newline is at least as long as the newline. -/
theorem length_of_getLast? (hr : r.getLast? = some '\n') : ['\n'].length ≤ r.length := by
  rcases List.getLast?_eq_some_iff.1 hr with ⟨v, rfl⟩
  exact (List.suffix_append v ['\n']).length_le

/-- Whether an expression ends does not depend on the trivia in front of the text. -/
theorem endsExpression_congr {t' : List Char} (h : skipTrivia t = skipTrivia t')
    (ht : EndsExpression t') : EndsExpression t := by
  intro s hs
  rw [← ht s hs]
  refine State.next_congr ?_ h
  rintro hmode
  rcases s with ⟨mode, st⟩
  obtain rfl : mode = .parts := hmode
  cases hs

/-- Lines in which nothing is left are skipped. -/
theorem skipTrivia_append_lines (ht : skipTrivia t = []) (hlast : t.getLast? = some '\n')
    (B : List Char) : skipTrivia (t ++ B) = skipTrivia B :=
  (isTrivia_of_skipTrivia t ht (.inr hlast)).skipTrivia_append B

/-- The steps of complete lines and of the text that follows them. -/
theorem steps_append (hB : EndsExpression B) {depth : Nat} {xs : List Step}
    (ht : t.getLast? = some '\n') (h : steps depth t = .ok xs) :
    EndsExpression (t ++ B) ∧ steps depth (t ++ B) = (steps 0 B).map (xs ++ ·) := by
  fun_induction steps depth t generalizing xs with
  | case1 => cases h
  | case2 depth t hstep =>
    cases h
    rcases skipTrivia_of_step?_none hstep with ⟨hskip, rfl⟩
    have hcongr := skipTrivia_append_lines hskip ht B
    refine ⟨endsExpression_congr hcongr hB, ?_⟩
    rw [steps_congr hcongr]
    cases steps 0 B <;> rfl
  | case3 => cases h
  | case4 depth t x r hstep ys hys ih =>
    cases h
    rcases step?_ends hstep with ⟨c, hsuffix, hc⟩
    have hr := getLast?_of_visible ht hsuffix (isSpace_of_visible hc)
    rcases ih hr hys with ⟨hends, hsteps⟩
    have hends' : ∀ r', Respaced False ['\n'] ('\n' :: B) r r' → EndsExpression r' := by
      intro r' hr'
      rwa [hr'.eq_append_lines hr]
    have hline : x.ClosesHeredoc r → EndsLineAt ['\n'] ('\n' :: B) r :=
      fun _ _ _ _ => endsLine_newline B
    rcases (respaced_append ht B).step? hstep (length_of_getLast? hr) hends' hline with
      ⟨r', hstep', hr'⟩
    rw [hr'.eq_append_lines hr] at hstep'
    refine ⟨endsExpression_of_step? hstep', ?_⟩
    rw [steps_of_step? hstep', hsteps]
    cases steps 0 B <;> rfl

/-- An object on complete lines ends in front of the text that follows them. -/
theorem scanObject_append (ht : t.getLast? = some '\n') (h : scanObject t = .ok r) :
    r.getLast? = some '\n' ∧ scanObject (t ++ B) = .ok (r ++ B) := by
  have hne : t ≠ r := by
    rintro rfl
    have hcomplete := State.complete_of_run h rfl
    cases hcomplete
  rcases State.run_ends marked_object h hne with ⟨a, c, hac, hc⟩
  have hr := getLast?_of_visible ht ⟨a, hac.symm⟩ (isSpace_of_visible hc)
  refine ⟨hr, ?_⟩
  have hends : ∀ r', Respaced False ['\n'] ('\n' :: B) r r' →
      State.EndsAt ⟨.again, [.key, .file]⟩ r' :=
    fun r' _ => State.endsAt_of_file (by simp) r'
  rcases State.run_respaced marked_object (respaced_append ht B) h (length_of_getLast? hr) hends
    (fun _ _ _ _ => endsLine_newline B) with ⟨r', hrun, hr'⟩
  rwa [hr'.eq_append_lines hr] at hrun

/-! ## Items in front of others -/

/-- Steps that close what they open and so many blocks that are open before them. -/
def Balanced : Nat → List Step → Prop
  | depth, [] => depth = 0
  | depth, x :: xs => (x = .leave → depth ≠ 0) ∧ Balanced (x.depth depth) xs

/-- The steps of a text close all blocks. -/
theorem steps_balanced {depth : Nat} {xs : List Step} (h : steps depth t = .ok xs) :
    Balanced depth xs := by
  fun_induction steps depth t generalizing xs with
  | case1 => cases h
  | case2 depth t hstep =>
    cases h
    exact (skipTrivia_of_step?_none hstep).2
  | case3 => cases h
  | case4 depth t x r hstep ys hys ih =>
    cases h
    refine ⟨?_, ih hys⟩
    rintro rfl
    rcases step?_cases hstep with ⟨hdepth, -⟩ | ⟨c, u, name, v, -, -, hafter⟩
    · exact hdepth
    · rcases afterName_cases hafter with ⟨_, _, hset, -⟩ | ⟨_, henter, -⟩
      · cases hset
      · cases henter

/-- The same blocks are open in front of the same items, but the items in `base` stand before all of
them. -/
inductive Above (base : List Item) : List Opened → List Item → List Opened → List Item → Prop where
  | outermost (items : List Item) : Above base [] items [] (items ++ base)
  | inside (o : Opened) {os os' : List Opened} {before' : List Item} (items : List Item)
    (h : Above base os o.before os' before') :
    Above base (o :: os) items (⟨o.kind, o.labels, before'⟩ :: os') items

/-- One more item. -/
theorem Above.cons {base items items' : List Item} {os os' : List Opened}
    (h : Above base os items os' items') (i : Item) :
    Above base os (i :: items) os' (i :: items') := by
  cases h with
  | outermost => exact .outermost (i :: items)
  | inside o _ h => exact .inside o (i :: items) h

/-- Items that stand before all others stay there. -/
theorem buildFrom_above {base items items' : List Item} {os os' : List Opened} {xs : List Step}
    (h : Above base os items os' items') (hxs : Balanced os.length xs) :
    buildFrom os' items' xs = base.reverse ++ buildFrom os items xs := by
  induction xs generalizing os items os' items' with
  | nil =>
    obtain rfl : os = [] := List.eq_nil_of_length_eq_zero hxs
    cases h
    rw [buildFrom, buildFrom, List.reverse_append]
  | cons x xs ih =>
    rcases hxs with ⟨hleave, hxs⟩
    cases x with
    | set name raw =>
      rw [buildFrom, buildFrom]
      exact ih (h.cons _) hxs
    | enter kind labels =>
      rw [buildFrom, buildFrom]
      exact ih (.inside ⟨String.ofList kind, labels, items⟩ [] h) hxs
    | leave =>
      cases h with
      | outermost => exact absurd rfl (hleave rfl)
      | @inside o os os' before' _ h =>
        rw [buildFrom, buildFrom]
        exact ih (h.cons (.block o.kind o.labels items.reverse)) hxs

/-- The items of steps in front of other steps. -/
theorem buildFrom_append {items : List Item} {os : List Opened} {xs ys : List Step}
    (hxs : Balanced os.length xs) (hys : Balanced 0 ys) :
    buildFrom os items (xs ++ ys) = buildFrom os items xs ++ build ys := by
  induction xs generalizing os items with
  | nil =>
    obtain rfl : os = [] := List.eq_nil_of_length_eq_zero hxs
    exact buildFrom_above (.outermost []) hys
  | cons x xs ih =>
    rcases hxs with ⟨hleave, hxs⟩
    cases x with
    | set name raw => exact ih hxs
    | enter kind labels =>
      rw [List.cons_append, buildFrom, buildFrom]
      exact ih hxs
    | leave =>
      cases os with
      | nil => exact absurd rfl (hleave rfl)
      | cons o os =>
        rw [List.cons_append, buildFrom, buildFrom]
        exact ih hxs

/-- The tree of steps in front of other steps. -/
theorem build_append {xs ys : List Step} (hxs : Balanced 0 xs) (hys : Balanced 0 ys) :
    build (xs ++ ys) = build xs ++ build ys :=
  buildFrom_append hxs hys

/-! ## Files -/

/-- The text of a file without its mark, with its tree. -/
inductive IsFile : List Char → Body → Prop where
  | object {t u v : List Char} (ht : skipTrivia t = '{' :: v) (hv : scanObject v = .ok u)
    (hu : skipTrivia u = []) : IsFile t []
  | items {t : List Char} {xs : List Step} (hxs : steps 0 t = .ok xs) : IsFile t (build xs)

/-- A text is parsed when it is a file, after the mark that may stand at its front. -/
theorem parse_eq_ok {b : Body} : parse t = .ok b ↔ IsFile (dropMark t) b := by
  by_cases hbrace : (skipTrivia (dropMark t)).head? = some '{'
  · rcases List.head?_eq_some_iff.1 hbrace with ⟨v, hv⟩
    rw [parse_of_brace hv, parseObject_eq_ok]
    constructor
    · rintro ⟨rfl, u, hu, hskip⟩
      exact .object hv hu hskip
    · rintro (⟨ht, hscan, hu⟩ | hxs)
      · rw [hv] at ht
        cases ht
        exact ⟨rfl, _, hscan, hu⟩
      · exact absurd hbrace (head?_of_steps hxs)
  · rw [parse_of_not_brace hbrace]
    constructor
    · intro h
      rcases hxs : steps 0 (dropMark t) with e | xs
      · rw [hxs] at h
        cases h
      · rw [hxs] at h
        cases h
        exact .items hxs
    · rintro (⟨ht, -, -⟩ | hxs)
      · rw [ht] at hbrace
        exact absurd rfl hbrace
      · rw [hxs]
        rfl

/-- A file that is one object. -/
def IsObject (t : List Char) : Prop :=
  (skipTrivia t).head? = some '{'

/-- The first token of lines stays the first one in front of other text. -/
theorem skipTrivia_append_token {c : Char} {u : List Char} (ht : t.getLast? = some '\n')
    (hskip : skipTrivia t = c :: u) (hc : isSpace c = false) (hslash : c ≠ '/') (B : List Char) :
    u.getLast? = some '\n' ∧ skipTrivia (t ++ B) = c :: (u ++ B) := by
  have hu := getLast?_of_visible ht (hskip ▸ skipTrivia_suffix t) hc
  rcases (respaced_append ht B).skipTrivia_front hskip hc hslash (length_of_getLast? hu) with
    ⟨u', hskip', hu'⟩
  rw [hu'.eq_append_lines hu] at hskip'
  exact ⟨hu, hskip'⟩

/-- Part of a joined text: lines that are a file or begin with the mark. -/
structure IsPart (t : List Char) (b : Body) : Prop where
  newline : t.getLast? = some '\n'
  file : t.head? = some '\ufeff' ∨ IsFile t b

/-- What a part begins with, by itself and in front of `B`. -/
inductive Leads (B t : List Char) (b : Body) : Prop where
  | mark (ht : t.head? = some '\ufeff') {u v : List Char} (hskip : skipTrivia t = '\ufeff' :: u)
    (hskip' : skipTrivia (t ++ B) = '\ufeff' :: v)
  | nothing (ht : t.head? ≠ some '\ufeff') (hskip : skipTrivia t = [])
    (hskip' : skipTrivia (t ++ B) = skipTrivia B) (hb : b = [])
  | object (ht : t.head? ≠ some '\ufeff') {u v : List Char} (hskip : skipTrivia t = '{' :: v)
    (hskip' : skipTrivia (t ++ B) = '{' :: (v ++ B)) (hscan : scanObject (v ++ B) = .ok (u ++ B))
    (hend : skipTrivia (u ++ B) = skipTrivia B) (hb : b = [])
  | items (ht : t.head? ≠ some '\ufeff') {c : Char} {u v : List Char} {xs : List Step}
    (hc : isNameStart c = true) (hskip : skipTrivia t = c :: u)
    (hskip' : skipTrivia (t ++ B) = c :: v) (hxs : steps 0 t = .ok xs) (hb : b = build xs)

/-- A byte order mark begins no name. -/
theorem isNameStart_mark : isNameStart '\ufeff' = false := by decide +kernel

theorem skipTrivia_mark (t : List Char) : skipTrivia ('\ufeff' :: t) = '\ufeff' :: t :=
  skipTrivia_cons (by decide) (by decide) (by decide) t

/-- No steps begin with the mark. -/
theorem steps_mark_ne {u : List Char} (ht : skipTrivia t = '\ufeff' :: u) {depth : Nat}
    {xs : List Step} : steps depth t ≠ .ok xs := by
  intro hxs
  rcases hstep : step? depth t with e | _ | ⟨x, r⟩
  · rw [steps_of_error hstep] at hxs
    cases hxs
  · rw [(skipTrivia_of_step?_none hstep).1] at ht
    cases ht
  · rcases step?_cases hstep with ⟨-, -, hskip⟩ | ⟨c, v, name, w, hskip, hi, -⟩
    · rw [ht] at hskip
      cases hskip
    · have hc := isNameStart_of_identifier? hi
      rw [ht] at hskip
      cases hskip
      rw [isNameStart_mark] at hc
      cases hc

/-- No file without its mark begins with trivia and another mark. -/
theorem not_isFile_of_mark {b : Body} {u : List Char} (ht : skipTrivia t = '\ufeff' :: u) :
    ¬IsFile t b := by
  rintro (⟨hskip, -, -⟩ | hxs)
  · rw [ht] at hskip
    cases hskip
  · exact steps_mark_ne ht hxs

/-- No file without its mark begins with another one. -/
theorem IsFile.head?_ne {b : Body} (h : IsFile t b) : t.head? ≠ some '\ufeff' := by
  intro hhead
  rcases List.head?_eq_some_iff.1 hhead with ⟨u, rfl⟩
  exact not_isFile_of_mark (skipTrivia_mark u) h

/-- A part of a file leads the text that follows it. -/
theorem IsPart.leads {b : Body} (h : IsPart t b) (B : List Char) : Leads B t b := by
  rcases h with ⟨hlast, hmark | hfile⟩
  · rcases List.head?_eq_some_iff.1 hmark with ⟨u, rfl⟩
    exact .mark hmark (skipTrivia_mark u) (skipTrivia_mark (u ++ B))
  · have hne := hfile.head?_ne
    cases hfile with
    | @object u v hskip hscan hend =>
      rcases skipTrivia_append_token hlast hskip rfl (by decide) B with ⟨hv, hskip'⟩
      rcases scanObject_append (B := B) hv hscan with ⟨hu, hscan'⟩
      exact .object hne hskip hskip' hscan' (skipTrivia_append_lines hend hu B) rfl
    | @items xs hxs =>
      rcases hstep : step? 0 t with e | _ | ⟨x, r⟩
      · rw [steps_of_error hstep] at hxs
        cases hxs
      · have hskip := (skipTrivia_of_step?_none hstep).1
        rw [steps_of_end hstep] at hxs
        cases hxs
        exact .nothing hne hskip (skipTrivia_append_lines hskip hlast B) rfl
      · rcases step?_cases hstep with ⟨hdepth, -⟩ | ⟨c, u, name, v, hskip, hi, -⟩
        · exact absurd rfl hdepth
        · have hc := isNameStart_of_identifier? hi
          have hslash : c ≠ '/' := by
            rintro rfl
            have hnot : isNameStart '/' = false := by decide
            rw [hc] at hnot
            cases hnot
          have hspace := isSpace_of_visible (visible_of_isNameStart hc)
          rcases skipTrivia_append_token hlast hskip hspace hslash B with ⟨-, hskip'⟩
          exact .items hne hc hskip hskip' hxs rfl


/-- Whether a text is a file does not depend on the trivia in front of it. -/
theorem isFile_congr {t' : List Char} {b : Body} (h : skipTrivia t = skipTrivia t') :
    IsFile t b ↔ IsFile t' b := by
  constructor
  · rintro (⟨ht, hv, hu⟩ | hxs)
    · exact .object (h.symm.trans ht) hv hu
    · exact .items ((steps_congr h.symm 0).trans hxs)
  · rintro (⟨ht, hv, hu⟩ | hxs)
    · exact .object (h.trans ht) hv hu
    · exact .items ((steps_congr h 0).trans hxs)

/-- A text that is no object is a file when it has steps, and these build its items. -/
theorem isFile_items_iff {b : Body} (ht : ¬IsObject t) :
    IsFile t b ↔ ∃ xs, steps 0 t = .ok xs ∧ b = build xs := by
  constructor
  · rintro (⟨hskip, -, -⟩ | hxs)
    · rw [IsObject, hskip] at ht
      exact absurd rfl ht
    · exact ⟨_, hxs, rfl⟩
  · rintro ⟨xs, hxs, rfl⟩
    exact .items hxs

/-- The empty text is a file without items. -/
theorem isFile_nil {b : Body} : IsFile [] b ↔ b = [] := by
  have hsteps : steps 0 [] = .ok [] := steps_of_end (by rw [step?, skipTrivia]; rfl)
  constructor
  · rintro (⟨ht, -, -⟩ | hxs)
    · cases ht
    · rw [hsteps] at hxs
      cases hxs
      rfl
  · rintro rfl
    exact .items hsteps

/-- An object in front of other text is a file if nothing is in the text. -/
theorem isFile_object_iff {b : Body} {u v : List Char} (ht : skipTrivia t = '{' :: v)
    (hv : scanObject v = .ok u) (hu : skipTrivia u = skipTrivia B) :
    IsFile t b ↔ b = [] ∧ skipTrivia B = [] := by
  constructor
  · rintro (⟨hskip, hscan, hend⟩ | hxs)
    · rw [ht] at hskip
      cases hskip
      rw [hv] at hscan
      cases hscan
      exact ⟨rfl, hu.symm.trans hend⟩
    · exact absurd (by rw [ht]; rfl) (head?_of_steps hxs)
  · rintro ⟨rfl, hB⟩
    exact .object ht hv (hu.trans hB)

/-! ## Joined texts -/

/-- If one of two texts is an object, nothing is in the other one. -/
def Compatible (t u : List Char) : Prop :=
  (IsObject t → skipTrivia u = []) ∧ (IsObject u → skipTrivia t = [])

/-- A text with nothing in it goes before every other. -/
theorem Compatible.of_nothing_left {u : List Char} (h : skipTrivia t = []) : Compatible t u :=
  ⟨fun hobject => by simp [IsObject, h] at hobject, fun _ => h⟩

theorem Compatible.of_nothing_right {u : List Char} (h : skipTrivia u = []) : Compatible t u :=
  ⟨fun _ => h, fun hobject => by simp [IsObject, h] at hobject⟩

/-- Parts that are a file together: none begins with the mark, and if one is an object, nothing is
in the others. -/
def Fit (ps : List (List Char × Body)) : Prop :=
  (∀ p ∈ ps, p.1.head? ≠ some '\ufeff') ∧ ps.Pairwise fun p q => Compatible p.1 q.1

/-- Parts fit when the first one fits the others, and these fit each other. -/
theorem fit_cons_iff {p : List Char × Body} {ps : List (List Char × Body)} :
    Fit (p :: ps) ↔
      p.1.head? ≠ some '\ufeff' ∧ Fit ps ∧ ∀ q ∈ ps, Compatible p.1 q.1 := by
  rw [Fit, Fit, List.forall_mem_cons, List.pairwise_cons]
  exact ⟨fun h => ⟨h.1.1, ⟨h.1.2, h.2.2⟩, h.2.1⟩, fun h => ⟨⟨h.1, h.2.1.1⟩, h.2.2, h.2.1.2⟩⟩

/-- A part in which nothing is left has no mark and no items. -/
theorem IsPart.of_nothing {b : Body} (hp : IsPart t b) (h : skipTrivia t = []) :
    t.head? ≠ some '\ufeff' ∧ b = [] := by
  cases hp.leads [] with
  | mark _ hskip => cases h.symm.trans hskip
  | nothing ht _ _ hb => exact ⟨ht, hb⟩
  | object _ hskip => cases h.symm.trans hskip
  | items _ _ hskip => cases h.symm.trans hskip

section

variable {ps : List (List Char × Body)} (hps : ∀ p ∈ ps, IsPart p.1 p.2)
include hps

/-- No expression goes on with parts. -/
theorem endsExpression_parts : EndsExpression (ps.flatMap (·.1)) := by
  induction ps with
  | nil => exact endsExpression_of_skipTrivia_nil (by rw [List.flatMap_nil, skipTrivia])
  | cons p ps ih =>
    rcases List.forall_mem_cons.1 hps with ⟨hp, hps⟩
    rw [List.flatMap_cons]
    cases hp.leads (ps.flatMap (·.1)) with
    | mark _ _ hskip =>
      exact endsExpression_of_symbol hskip isNameStart_mark (by decide) (by decide) (by decide)
    | nothing _ _ hskip _ => exact endsExpression_congr hskip (ih hps)
    | object _ _ hskip _ _ _ => exact endsExpression_of_openBrace hskip
    | items _ hc _ hskip _ _ => exact endsExpression_of_isNameStart hskip hc

/-- Parts in which nothing is left. -/
theorem skipTrivia_parts_eq_nil :
    skipTrivia (ps.flatMap (·.1)) = [] ↔ ∀ p ∈ ps, skipTrivia p.1 = [] := by
  induction ps with
  | nil => simp [skipTrivia]
  | cons p ps ih =>
    rcases List.forall_mem_cons.1 hps with ⟨hp, hps⟩
    rw [List.flatMap_cons, List.forall_mem_cons, ← ih hps]
    cases hp.leads (ps.flatMap (·.1)) with
    | mark _ hskip hskip' => simp [hskip, hskip']
    | nothing _ hskip hskip' _ => simp [hskip, hskip']
    | object _ hskip hskip' _ _ _ => simp [hskip, hskip']
    | items _ _ hskip hskip' _ _ => simp [hskip, hskip']

/-- Parts that begin with an object have one among them. -/
theorem exists_isObject (h : IsObject (ps.flatMap (·.1))) : ∃ p ∈ ps, IsObject p.1 := by
  induction ps with
  | nil => simp [IsObject, skipTrivia] at h
  | cons p ps ih =>
    rcases List.forall_mem_cons.1 hps with ⟨hp, hps⟩
    rw [IsObject, List.flatMap_cons] at h
    cases hp.leads (ps.flatMap (·.1)) with
    | mark _ _ hskip' => simp [hskip'] at h
    | nothing _ _ hskip' _ =>
      rw [hskip'] at h
      rcases ih hps h with ⟨q, hq, hobject⟩
      exact ⟨q, List.mem_cons_of_mem p hq, hobject⟩
    | object _ hskip _ _ _ _ =>
      exact ⟨p, List.mem_cons_self .., by rw [IsObject, hskip]; rfl⟩
    | items _ hc _ hskip' _ _ =>
      rw [hskip'] at h
      obtain rfl := Option.some.inj h
      have hnot : isNameStart '{' = false := by decide
      rw [hc] at hnot
      cases hnot

/-- Parts that are read as steps have no mark and no object among them. -/
theorem not_isObject_of_steps {ys : List Step} (h : steps 0 (ps.flatMap (·.1)) = .ok ys) :
    ∀ p ∈ ps, ¬IsObject p.1 := by
  induction ps generalizing ys with
  | nil => exact List.forall_mem_nil _
  | cons p ps ih =>
    rcases List.forall_mem_cons.1 hps with ⟨hp, hps⟩
    rw [List.flatMap_cons] at h
    rw [List.forall_mem_cons]
    cases hp.leads (ps.flatMap (·.1)) with
    | mark _ _ hskip' => exact absurd h (steps_mark_ne hskip')
    | nothing _ hskip hskip' _ =>
      rw [steps_congr hskip'] at h
      exact ⟨by simp [IsObject, hskip], ih hps h⟩
    | object _ _ hskip' _ _ _ =>
      exact absurd (by rw [hskip']; rfl) (head?_of_steps h)
    | items _ hc hskip _ hxs _ =>
      rw [(steps_append (endsExpression_parts hps) hp.newline hxs).2] at h
      rcases hrest : steps 0 (ps.flatMap (·.1)) with e | zs
      · rw [hrest] at h
        cases h
      · exact ⟨head?_of_steps hxs, ih hps hrest⟩

/-- What stands after an object is a file together with it if nothing is in it. -/
theorem isFile_object_parts {b : Body} {u v w : List Char} (ht : skipTrivia t = '{' :: v)
    (hskip : skipTrivia (t ++ ps.flatMap (·.1)) = '{' :: w) (hscan : scanObject w = .ok u)
    (hend : skipTrivia u = skipTrivia (ps.flatMap (·.1))) :
    IsFile (t ++ ps.flatMap (·.1)) b ↔
      (Fit ps ∧ ∀ q ∈ ps, Compatible t q.1) ∧ b = ps.flatMap (·.2) := by
  have hobject : IsObject t := congrArg List.head? ht
  have hempty : (∀ q ∈ ps, skipTrivia q.1 = []) → ps.flatMap (·.2) = [] := by
    intro hnothing
    exact List.flatMap_eq_nil_iff.2 fun q hq => ((hps q hq).of_nothing (hnothing q hq)).2
  rw [isFile_object_iff hskip hscan hend, skipTrivia_parts_eq_nil hps]
  constructor
  · rintro ⟨rfl, hnothing⟩
    have hmarks : ∀ q ∈ ps, q.1.head? ≠ some '\ufeff' :=
      fun q hq => ((hps q hq).of_nothing (hnothing q hq)).1
    have hpairs : ps.Pairwise fun q r => Compatible q.1 r.1 :=
      List.pairwise_of_forall_mem_list fun q hq r _ => .of_nothing_left (hnothing q hq)
    exact ⟨⟨⟨hmarks, hpairs⟩, fun q hq => .of_nothing_right (hnothing q hq)⟩,
      (hempty hnothing).symm⟩
  · rintro ⟨⟨-, hcompatible⟩, rfl⟩
    have hnothing : ∀ q ∈ ps, skipTrivia q.1 = [] := fun q hq => (hcompatible q hq).1 hobject
    exact ⟨hempty hnothing, hnothing⟩

/-- What stands after steps is a file together with them if it is one without an object. -/
theorem isFile_steps_parts {b : Body} {c : Char} {u v : List Char} {xs : List Step}
    (hlast : t.getLast? = some '\n') (ht : skipTrivia t = c :: u)
    (hskip : skipTrivia (t ++ ps.flatMap (·.1)) = c :: v) (hxs : steps 0 t = .ok xs)
    (ih : ∀ {b : Body}, IsFile (ps.flatMap (·.1)) b ↔ Fit ps ∧ b = ps.flatMap (·.2)) :
    IsFile (t ++ ps.flatMap (·.1)) b ↔
      (Fit ps ∧ ∀ q ∈ ps, Compatible t q.1) ∧ b = build xs ++ ps.flatMap (·.2) := by
  have hobject : ¬IsObject t := head?_of_steps hxs
  have hobject' : ¬IsObject (t ++ ps.flatMap (·.1)) := by
    rw [IsObject, ht] at hobject
    rwa [IsObject, hskip]
  rw [isFile_items_iff hobject', (steps_append (endsExpression_parts hps) hlast hxs).2]
  constructor
  · rintro ⟨zs, hzs, rfl⟩
    rcases hys : steps 0 (ps.flatMap (·.1)) with e | ys
    · rw [hys] at hzs
      cases hzs
    · rw [hys] at hzs
      cases hzs
      rcases ih.1 (.items hys) with ⟨hfit, htree⟩
      have hcompatible : ∀ q ∈ ps, Compatible t q.1 := fun q hq =>
        ⟨fun h => absurd h hobject, fun h => absurd h (not_isObject_of_steps hps hys q hq)⟩
      rw [build_append (steps_balanced hxs) (steps_balanced hys), htree]
      exact ⟨⟨hfit, hcompatible⟩, rfl⟩
  · rintro ⟨⟨hfit, hcompatible⟩, rfl⟩
    have hrest : ¬IsObject (ps.flatMap (·.1)) := by
      intro h
      rcases exists_isObject hps h with ⟨q, hq, hq'⟩
      have hnothing := (hcompatible q hq).2 hq'
      rw [ht] at hnothing
      cases hnothing
    rcases (isFile_items_iff hrest).1 (ih.2 ⟨hfit, rfl⟩) with ⟨ys, hys, htree⟩
    refine ⟨xs ++ ys, by rw [hys]; rfl, ?_⟩
    rw [htree, build_append (steps_balanced hxs) (steps_balanced hys)]

/-- Parts are a file just when they fit together, and their items then stand one after the
other. -/
theorem isFile_parts {b : Body} :
    IsFile (ps.flatMap (·.1)) b ↔ Fit ps ∧ b = ps.flatMap (·.2) := by
  induction ps generalizing b with
  | nil => simp [isFile_nil, Fit]
  | cons p ps ih =>
    rcases List.forall_mem_cons.1 hps with ⟨hp, hps⟩
    rw [List.flatMap_cons, List.flatMap_cons, fit_cons_iff]
    cases hp.leads (ps.flatMap (·.1)) with
    | mark ht _ hskip' => exact iff_of_false (not_isFile_of_mark hskip') fun h => h.1.1 ht
    | nothing ht hskip hskip' hb =>
      have hcompatible : ∀ q ∈ ps, Compatible p.1 q.1 := fun q _ => .of_nothing_left hskip
      rw [isFile_congr hskip', ih hps, hb, List.nil_append]
      exact ⟨fun h => ⟨⟨ht, h.1, hcompatible⟩, h.2⟩, fun h => ⟨h.1.2.1, h.2⟩⟩
    | object ht hskip hskip' hscan hend hb =>
      rw [isFile_object_parts hps hskip hskip' hscan hend, hb, List.nil_append]
      exact ⟨fun h => ⟨⟨ht, h.1⟩, h.2⟩, fun h => ⟨h.1.2, h.2⟩⟩
    | items ht hc hskip hskip' hxs hb =>
      rw [isFile_steps_parts hps hp.newline hskip hskip' hxs (ih hps), hb]
      exact ⟨fun h => ⟨⟨ht, h.1⟩, h.2⟩, fun h => ⟨h.1.2, h.2⟩⟩

end

/-! ## Joined files -/

/-- Files that can be put one after the other: none after the first begins with the mark, and if one
is an object, nothing is in the others. -/
structure Joinable (ts : List (List Char)) : Prop where
  marks : ∀ t ∈ ts.tail, t.head? ≠ some '\ufeff'
  objects : ts.Pairwise fun t u => Compatible (dropMark t) (dropMark u)

instance (t : List Char) : Decidable (IsObject t) :=
  inferInstanceAs (Decidable (_ = _))

instance (t u : List Char) : Decidable (Compatible t u) :=
  inferInstanceAs (Decidable (_ ∧ _))

instance (ts : List (List Char)) : Decidable (Joinable ts) :=
  decidable_of_iff
    ((∀ t ∈ ts.tail, t.head? ≠ some '\ufeff') ∧
      ts.Pairwise fun t u => Compatible (dropMark t) (dropMark u))
    ⟨fun h => ⟨h.1, h.2⟩, fun h => ⟨h.marks, h.objects⟩⟩

/-- Lines at the end of a text do not change the mark at its front. -/
theorem dropMark_append_lines (ht : t.getLast? = some '\n') (B : List Char) :
    dropMark (t ++ B) = dropMark t ++ B ∧ (dropMark t).getLast? = some '\n' := by
  cases t with
  | nil => cases ht
  | cons c t =>
    rw [List.cons_append, dropMark, dropMark]
    by_cases hc : c = '\ufeff'
    · rw [if_pos hc, if_pos hc]
      refine ⟨rfl, getLast?_of_cons ht ?_⟩
      rw [hc]
      decide
    · rw [if_neg hc, if_neg hc]
      exact ⟨rfl, ht⟩

/-- Files can be joined if their texts without the first mark are compatible. -/
theorem joinable_cons_iff {f : List Char × Body} {fs : List (List Char × Body)}
    (hf : (dropMark f.1).head? ≠ some '\ufeff') :
    Joinable ((f :: fs).map (·.1)) ↔ Fit ((dropMark f.1, f.2) :: fs) := by
  have hobjects : (∀ g ∈ fs, g.1.head? ≠ some '\ufeff') →
      (((f :: fs).map (·.1)).Pairwise (fun t u => Compatible (dropMark t) (dropMark u)) ↔
        ((dropMark f.1, f.2) :: fs).Pairwise fun p q => Compatible p.1 q.1) := by
    intro hmarks
    have hdrop : fs.map (fun g => dropMark g.1) = fs.map (·.1) :=
      List.map_congr_left fun g hg => dropMark_of_head? (hmarks g hg)
    have hmap : ((f :: fs).map (·.1)).map dropMark = ((dropMark f.1, f.2) :: fs).map (·.1) := by
      rw [List.map_map]
      exact congrArg (dropMark f.1 :: ·) hdrop
    have hpairs := List.pairwise_map (l := (f :: fs).map (·.1)) (f := dropMark) (R := Compatible)
    rw [← hpairs, hmap, List.pairwise_map]
  constructor
  · rintro ⟨hmarks, hpairs⟩
    have hmarks : ∀ g ∈ fs, g.1.head? ≠ some '\ufeff' :=
      fun g hg => hmarks g.1 (List.mem_map_of_mem hg)
    exact ⟨List.forall_mem_cons.2 ⟨hf, hmarks⟩, (hobjects hmarks).1 hpairs⟩
  · rintro ⟨hmarks, hpairs⟩
    have hmarks := (List.forall_mem_cons.1 hmarks).2
    refine ⟨?_, (hobjects hmarks).2 hpairs⟩
    intro t ht
    rcases List.mem_map.1 ht with ⟨g, hg, rfl⟩
    exact hmarks g hg

/-- Files that are accepted by themselves are accepted one after the other just when they can be
joined, and their items then stand one after the other. -/
theorem parse_flatMap {fs : List (List Char × Body)}
    (hfs : ∀ f ∈ fs, f.1.getLast? = some '\n' ∧ parse f.1 = .ok f.2) {b : Body} :
    parse (fs.flatMap (·.1)) = .ok b ↔ Joinable (fs.map (·.1)) ∧ b = fs.flatMap (·.2) := by
  cases fs with
  | nil =>
    rw [List.flatMap_nil, parse_eq_ok, dropMark, isFile_nil]
    exact ⟨fun h => ⟨⟨List.forall_mem_nil _, .nil⟩, h⟩, fun h => h.2⟩
  | cons f fs =>
    rcases List.forall_mem_cons.1 hfs with ⟨⟨hlast, hf⟩, hfs⟩
    rcases dropMark_append_lines hlast (fs.flatMap (·.1)) with ⟨hdrop, hlast'⟩
    have hfile := parse_eq_ok.1 hf
    have hparts : ∀ p ∈ (dropMark f.1, f.2) :: fs, IsPart p.1 p.2 := by
      rw [List.forall_mem_cons]
      refine ⟨⟨hlast', .inr hfile⟩, fun g hg => ⟨(hfs g hg).1, ?_⟩⟩
      by_cases hmark : g.1.head? = some '\ufeff'
      · exact .inl hmark
      · have hfile := parse_eq_ok.1 (hfs g hg).2
        rw [dropMark_of_head? hmark] at hfile
        exact .inr hfile
    have hjoined := isFile_parts hparts (b := b)
    rw [List.flatMap_cons] at hjoined
    rw [parse_eq_ok, List.flatMap_cons, hdrop, hjoined, joinable_cons_iff hfile.head?_ne]
    rfl

end HclQuery.Grammar
