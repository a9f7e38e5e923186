import HclQuery.Proofs.Grammar.Respacing

/-!
# Parts of templates in texts that are spaced differently

Blanks between the parts of a template are passed over.  Only whether a newline is among them
matters, and it is among the blanks of every gap.  So the parts of two texts are the same up to the
place where the texts agree.

Main results:

- Theorem {lit}`Respaced.marker`: the same sequence is opened.
- Theorem {lit}`Respaced.heredocLine`: the same line of a heredoc is read, or is its last one.
- Theorem {lit}`Respaced.part?`: the same part is read.
-/

namespace HclQuery.Grammar

open Text

variable {gaps : Prop} {rest rest' t t' : List Char}

/-! ## Parts of templates -/

/-- Only blanks stand in front of the end of the line that a text begins in. -/
def EndsLine (t : List Char) : Prop :=
  (t.dropWhile isLineSpace).head? = some '\n'

theorem endsLine_newline (t : List Char) : EndsLine ('\n' :: t) := rfl

/-- If only blanks stand in front of the place where a text goes on with `rest`, the line ends after
the place when it goes on with `rest'`. -/
def EndsLineAt (rest rest' t : List Char) : Prop :=
  ∀ a, t = a ++ rest → (∀ c ∈ a, isLineSpace c = true) → EndsLine rest'

/-- A gap goes on to a newline. -/
theorem head?_dropWhile_gap {x : List Char} (hx : Gap x) (t : List Char) :
    ((x ++ t).dropWhile isLineSpace).head? = some '\n' := by
  rcases hx with ⟨hspaces, hnewline⟩
  induction x with
  | nil => cases hnewline
  | cons c x ih =>
    rw [List.cons_append]
    by_cases hc : c = '\n'
    · rw [hc]
      rfl
    · have hspace : isLineSpace c = true := by
        simp [isLineSpace, hspaces c (List.mem_cons_self ..), hc]
      rw [List.dropWhile_cons_of_pos hspace]
      rcases List.mem_cons.1 hnewline with heq | hmem
      · exact absurd heq.symm hc
      · exact ih (fun d hd => hspaces d (List.mem_cons_of_mem _ hd)) hmem

/-- A hexadecimal digit is visible. -/
theorem isSpace_of_isHexDigit {c : Char} (hc : isHexDigit c = true) : isSpace c = false := by
  rw [Bool.eq_false_iff]
  intro hspace
  have hnot := of_isBlank (p := fun c => !isHexDigit c) (by decide) (isBlank_of_isSpace hspace)
  simp [hc] at hnot

namespace Respaced

/-- Hexadecimal digits of one text are there in the other. -/
theorem hexDigits? {n : Nat} {u : List Char} (h : Respaced gaps rest rest' t t')
    (hd : Grammar.hexDigits? n t = some u) (hu : rest.length ≤ u.length) :
    ∃ u', Grammar.hexDigits? n t' = some u' ∧ Respaced gaps rest rest' u u' := by
  rw [Grammar.hexDigits?] at hd
  by_cases hall : (t.take n).length = n ∧ (t.take n).all isHexDigit = true
  · rw [if_pos hall] at hd
    obtain rfl : t.drop n = u := Option.some.inj hd
    have hspace : ∀ c ∈ t.take n, isSpace c = false :=
      fun c hc => isSpace_of_isHexDigit (List.all_eq_true.1 hall.2 c hc)
    have happ : t.take n ++ t.drop n = t := List.take_append_drop n t
    rw [← happ] at h
    rcases h.of_append hspace hu with ⟨u', rfl, hrel⟩
    have htake : (t.take n ++ u').take n = t.take n := List.take_left' hall.1
    have hdrop : (t.take n ++ u').drop n = u' := List.drop_left' hall.1
    refine ⟨u', ?_, hrel⟩
    rw [Grammar.hexDigits?, htake, hdrop, if_pos hall]
  · rw [if_neg hall] at hd
    cases hd

/-- An escape of one text is one of the other. -/
theorem escape? {u : List Char} (h : Respaced gaps rest rest' t t')
    (he : Grammar.escape? t = some u) (hu : rest.length ≤ u.length) :
    ∃ u', Grammar.escape? t' = some u' ∧ Respaced gaps rest rest' u u' := by
  have hlt := escape?_length he
  cases t with
  | nil => cases he
  | cons c v =>
    have hc : isSpace c = false := by
      rw [Bool.eq_false_iff]
      intro hspace
      have hne : ∀ d, isSpace d = false → c ≠ d := fun d hd => ne_of_isSpace hspace hd
      simp [Grammar.escape?, hne '"' rfl, hne 'n' rfl, hne 'r' rfl, hne 't' rfl, hne '\\' rfl,
        hne 'u' rfl, hne 'U' rfl] at he
    rcases h.of_cons hc with ⟨v', rfl, hv⟩ | ⟨hstop, -⟩
    · simp only [Grammar.escape?] at he ⊢
      by_cases hletter : c = '"' ∨ c = 'n' ∨ c = 'r' ∨ c = 't' ∨ c = '\\'
      · rw [if_pos hletter] at he ⊢
        obtain rfl : v = u := Option.some.inj he
        exact ⟨v', rfl, hv⟩
      rw [if_neg hletter] at he ⊢
      by_cases hshort : c = 'u'
      · rw [if_pos hshort] at he ⊢
        exact hv.hexDigits? he hu
      rw [if_neg hshort] at he ⊢
      by_cases hlong : c = 'U'
      · rw [if_pos hlong] at he ⊢
        exact hv.hexDigits? he hu
      · rw [if_neg hlong] at he
        cases he
    · rw [hstop] at hlt
      omega

/-- What a marker character begins, unless text goes on at the place. -/
theorem marker {c : Char} (hc : isSpace c = false) (sequence : Part)
    (h : Respaced gaps rest rest' t t')
    (hrest : rest.length ≤ (Grammar.marker c sequence t).2.length)
    (hchunk : (Grammar.marker c sequence t).1 = .chunk →
      rest.length < (Grammar.marker c sequence t).2.length) :
    (Grammar.marker c sequence t').1 = (Grammar.marker c sequence t).1 ∧
      Respaced gaps rest rest' (Grammar.marker c sequence t).2
        (Grammar.marker c sequence t').2 := by
  have hspace : ∀ (b : Char) (u : List Char), isSpace b = true →
      Grammar.marker c sequence (b :: u) = (.chunk, b :: u) := by
    intro b u hb
    rw [Grammar.marker, if_neg (ne_of_isSpace hb rfl), if_neg (ne_of_isSpace hb hc)]
  cases h.front with
  | stop ht =>
    subst ht
    rcases marker_chunk_or_lt c sequence t with hmarker | hlt
    · have hle := marker_length_le c sequence t
      have hlt := hchunk hmarker
      omega
    · omega
  | gap b b' u u' ht ht' hb hb' =>
    rw [ht, ht', hspace b u hb, hspace b' u' hb', ← ht, ← ht']
    exact ⟨rfl, h⟩
  | char d u u' ht ht' hu =>
    subst ht ht'
    rw [Grammar.marker] at hchunk ⊢
    rw [Grammar.marker]
    by_cases hbrace : d = '{'
    · rw [if_pos hbrace, if_pos hbrace]
      exact ⟨rfl, hu⟩
    rw [if_neg hbrace] at hchunk ⊢
    rw [if_neg hbrace]
    by_cases hdc : d = c
    · rw [if_pos hdc] at hchunk ⊢
      rw [if_pos hdc]
      have hrest := hchunk rfl
      by_cases hnext : u.head? = some '{'
      · rcases List.head?_eq_some_iff.1 hnext with ⟨v, rfl⟩
        rw [if_pos hnext] at hrest ⊢
        rcases hu.of_cons rfl with ⟨v', rfl, hv⟩ | ⟨hstop, -⟩
        · rw [if_pos List.head?_cons]
          exact ⟨rfl, hv⟩
        · rw [← hstop] at hrest
          simp only [List.drop_succ_cons, List.drop_zero, List.length_cons] at hrest
          omega
      · have hnext' : ¬u'.head? = some '{' := fun heq => hnext (hu.head?_of_head? rfl heq)
        rw [if_neg hnext, if_neg hnext']
        exact ⟨rfl, hu⟩
    · rw [if_neg hdc, if_neg hdc]
      exact ⟨rfl, h⟩

/-- How far a line of a heredoc agrees with the marker. -/
theorem matchMarker {expected : List Char} (hexpected : ∀ c ∈ expected, isSpace c = false)
    (h : Respaced gaps rest rest' t t')
    (hrest : rest.length ≤ (Grammar.matchMarker expected t).2.length)
    (hfalse : (Grammar.matchMarker expected t).1 = false →
      rest.length < (Grammar.matchMarker expected t).2.length) :
    (Grammar.matchMarker expected t').1 = (Grammar.matchMarker expected t).1 ∧
      Respaced gaps rest rest' (Grammar.matchMarker expected t).2
        (Grammar.matchMarker expected t').2 := by
  induction expected generalizing t t' with
  | nil => exact ⟨rfl, h⟩
  | cons m ms ih =>
    have hm : isSpace m = false := hexpected m (List.mem_cons_self ..)
    have hspace : ∀ (b : Char) (u : List Char), isSpace b = true →
        Grammar.matchMarker (m :: ms) (b :: u) = (false, b :: u) := by
      intro b u hb
      rw [Grammar.matchMarker, if_neg (ne_of_isSpace hb hm)]
    cases h.front with
    | stop ht =>
      subst ht
      have hle := matchMarker_length_le (m :: ms) t
      rcases hmatch : Grammar.matchMarker (m :: ms) t with ⟨found, u⟩
      cases found with
      | false =>
        rw [hmatch] at hfalse hle
        exact absurd (hfalse rfl) (Nat.not_lt.2 hle)
      | true =>
        have hlength := congrArg List.length (matchMarker_true hmatch)
        rw [hmatch] at hrest
        simp only [List.length_append, List.length_cons] at hlength hrest
        omega
    | gap b b' u u' ht ht' hb hb' =>
      rw [ht, ht', hspace b u hb, hspace b' u' hb', ← ht, ← ht']
      exact ⟨rfl, h⟩
    | char d u u' ht ht' hu =>
      subst ht ht'
      rw [Grammar.matchMarker] at hrest hfalse ⊢
      rw [Grammar.matchMarker]
      by_cases hdm : d = m
      · rw [if_pos hdm] at hrest hfalse ⊢
        rw [if_pos hdm]
        exact ih (fun c hc => hexpected c (List.mem_cons_of_mem _ hc)) hu hrest hfalse
      · rw [if_neg hdm, if_neg hdm]
        exact ⟨rfl, h⟩

/-- The blanks after a marker up to the end of its line, which may end after the place. -/
theorem lineEnd (h : Respaced gaps rest rest' t t')
    (hstop : EndsLineAt rest rest' t) (ht : EndsLine t) : EndsLine t' := by
  induction h with
  | stop => exact hstop [] rfl (List.forall_mem_nil _)
  | char c h ih =>
    rw [EndsLine] at ht ⊢
    by_cases hc : isLineSpace c = true
    · rw [List.dropWhile_cons_of_pos hc] at ht ⊢
      refine ih (fun a ha hspaces => hstop (c :: a) (by rw [ha]; rfl) ?_) ht
      exact List.forall_mem_cons.2 ⟨hc, hspaces⟩
    · rw [List.dropWhile_cons_of_neg hc] at ht ⊢
      exact ht
  | gap hgaps hx hx' h ih => exact head?_dropWhile_gap hx' _

/-- The blanks after a marker when its line goes on. -/
theorem lineSpaces (h : Respaced gaps rest rest' t t')
    (ht : (t.dropWhile isLineSpace).head? ≠ some '\n')
    (hrest : rest.length < (t.dropWhile isLineSpace).length) :
    Respaced gaps rest rest' (t.dropWhile isLineSpace) (t'.dropWhile isLineSpace) := by
  induction h with
  | stop =>
    have hle := (List.dropWhile_suffix isLineSpace (l := rest)).length_le
    omega
  | char c h ih =>
    by_cases hc : isLineSpace c = true
    · rw [List.dropWhile_cons_of_pos hc] at ht hrest ⊢
      rw [List.dropWhile_cons_of_pos hc]
      exact ih ht hrest
    · rw [List.dropWhile_cons_of_neg hc, List.dropWhile_cons_of_neg hc]
      exact .char c h
  | gap hgaps hx hx' h ih => exact absurd (head?_dropWhile_gap hx _) ht

/-- A line that goes on after a marker and blanks: the character that follows them is taken. -/
theorem afterMarker (h : Respaced gaps rest rest' t t')
    (ht : (t.dropWhile isLineSpace).head? ≠ some '\n')
    (hrest : rest.length < ((t.dropWhile isLineSpace).drop 1).length) :
    (t'.dropWhile isLineSpace).head? ≠ some '\n' ∧
      Respaced gaps rest rest' ((t.dropWhile isLineSpace).drop 1)
        ((t'.dropWhile isLineSpace).drop 1) := by
  have hdrop := (List.drop_suffix 1 (t.dropWhile isLineSpace)).length_le
  have hspaces := h.lineSpaces ht (Nat.lt_of_lt_of_le hrest hdrop)
  have hne : t.dropWhile isLineSpace ≠ [] := by
    intro hnil
    rw [hnil] at hrest
    exact Nat.not_lt_zero _ hrest
  rcases exists_cons_dropWhile hne with ⟨c, v, hcv, hline⟩
  rw [hcv] at ht hrest hspaces ⊢
  have hnewline : c ≠ '\n' := by simpa using ht
  have hc : isSpace c = false := by simpa [isLineSpace, hnewline] using hline
  rcases hspaces.of_cons hc with ⟨v', hv', hv⟩ | ⟨hstop, -⟩
  · rw [hv']
    exact ⟨ht, hv⟩
  · rw [← hstop] at hrest
    simp only [List.drop_succ_cons, List.drop_zero, List.length_cons] at hrest
    omega

/-- A line of a heredoc in one text is one in the other, or ends the heredoc in both. -/
theorem heredocLine {expected u : List Char} {p : Part}
    (hexpected : ∀ c ∈ expected, isSpace c = false) (h : Respaced gaps rest rest' t t')
    (hp : Grammar.heredocLine expected t = (p, u)) (hu : rest.length ≤ u.length)
    (hchunk : p = .chunk → rest.length < u.length)
    (hstop : p = .finish → EndsLineAt rest rest' u) :
    ∃ u', Grammar.heredocLine expected t' = (p, u') ∧ Respaced gaps rest rest' u u' := by
  rcases hmatch : Grammar.matchMarker expected t with ⟨found, x⟩
  rcases hmatch' : Grammar.matchMarker expected t' with ⟨found', x'⟩
  have hsame := h.matchMarker hexpected
  rw [hmatch, hmatch'] at hsame
  rw [Grammar.heredocLine, hmatch] at hp
  rw [Grammar.heredocLine, hmatch']
  cases found with
  | false =>
    obtain ⟨rfl, rfl⟩ : _ ∧ _ := by simpa using hp
    rcases hsame hu fun _ => hchunk rfl with ⟨hfound, hrel⟩
    obtain rfl : found' = false := hfound
    exact ⟨x', rfl, hrel⟩
  | true =>
    simp only at hp
    by_cases hline : (x.dropWhile isLineSpace).head? = some '\n'
    · rw [if_pos hline] at hp
      obtain ⟨rfl, rfl⟩ : _ ∧ _ := by simpa using hp
      rcases hsame hu nofun with ⟨hfound, hrel⟩
      obtain rfl : found' = true := hfound
      have hline' : (x'.dropWhile isLineSpace).head? = some '\n' :=
        hrel.lineEnd (hstop rfl) hline
      simp only [if_pos hline']
      exact ⟨x', rfl, hrel⟩
    · rw [if_neg hline] at hp
      cases hp
      have hdrop := (List.drop_suffix 1 (x.dropWhile isLineSpace)).length_le
      have hle := (List.dropWhile_suffix isLineSpace (l := x)).length_le
      rcases hsame (Nat.le_trans hu (Nat.le_trans hdrop hle)) nofun with ⟨hfound, hrel⟩
      obtain rfl : found' = true := hfound
      rcases hrel.afterMarker hline (hchunk rfl) with ⟨hline', hrest⟩
      simp only [if_neg hline']
      exact ⟨_, rfl, hrest⟩

/-- A part of a template that begins with a marker character. -/
theorem sequence {c : Char} {v v' u : List Char} {p s : Part} (hc : isSpace c = false)
    (h : Respaced gaps rest rest' v v') (hp : some (Grammar.marker c s v) = some (p, u))
    (hu : rest.length ≤ u.length) (hchunk : p = .chunk → rest.length < u.length) :
    ∃ u', some (Grammar.marker c s v') = some (p, u') ∧ Respaced gaps rest rest' u u' := by
  have hmarker := Option.some.inj hp
  have hsame := h.marker hc s
  rw [hmarker] at hsame
  rcases hsame hu hchunk with ⟨hfirst, hrel⟩
  refine ⟨(Grammar.marker c s v').2, ?_, hrel⟩
  rw [← show (Grammar.marker c s v').1 = p from hfirst]

/-- A part of a template takes more than the blanks in front of it. -/
theorem lt_of_part? {context : Context} {sequences ending : Bool} {p : Part} {u : List Char}
    (hp : Grammar.part? context sequences ending t = some (p, u))
    (hu : rest.length ≤ u.length) (hchunk : p = .chunk → rest.length < u.length) :
    rest.length < (t.dropWhile isSpace).length := by
  by_cases hp' : p = .chunk
  · exact Nat.lt_of_lt_of_le (hchunk hp') (part?_suffix hp).length_le
  · exact Nat.lt_of_le_of_lt hu (part?_lt hp hp')

/-- A part of a template before the place.  The template goes on after it unless it is the end. -/
theorem part? {context : Context} {sequences ending : Bool} {p : Part} {u : List Char}
    (hcontext : ∀ m, context = .heredoc m → ∀ c ∈ m, isSpace c = false)
    (h : Respaced gaps rest rest' t t')
    (hp : Grammar.part? context sequences ending t = some (p, u))
    (hu : rest.length ≤ u.length) (hchunk : p = .chunk → rest.length < u.length)
    (hstop : ∀ m, context = .heredoc m → p = .finish → EndsLineAt rest rest' u) :
    ∃ u', Grammar.part? context sequences ending t' = some (p, u') ∧
      Respaced gaps rest rest' u u' := by
  have hlength := lt_of_part? hp hu hchunk
  rcases h.spaces hlength with ⟨hspaces, hnewline⟩
  rw [Grammar.part?] at hp ⊢
  rw [hnewline]
  cases hempty : t.dropWhile isSpace with
  | nil => rw [hempty] at hp; cases hp
  | cons c v =>
    have hc : isSpace c = false := by
      rcases exists_cons_dropWhile (p := isSpace) (t := t) (by simp [hempty]) with ⟨d, w, hdw, hd⟩
      rw [hempty] at hdw
      cases hdw
      exact hd
    rw [hempty] at hspaces hp hlength
    rcases hspaces.of_cons hc with ⟨v', hv', hv⟩ | ⟨hstop, -⟩
    · rw [hv'] at hspaces ⊢
      simp only at hp ⊢
      by_cases hzero : c = '\x00'
      · rw [if_pos hzero] at hp
        cases hp
      rw [if_neg hzero] at hp ⊢
      by_cases hquote : c = '"' ∧ context = .quoted ∧ ending = true
      · rw [if_pos hquote] at hp ⊢
        obtain ⟨rfl, rfl⟩ : _ ∧ _ := by simpa using hp
        exact ⟨v', rfl, hv⟩
      rw [if_neg hquote] at hp ⊢
      by_cases hdollar : c = '$' ∧ sequences = true
      · rw [if_pos hdollar] at hp ⊢
        exact hv.sequence hc hp hu hchunk
      rw [if_neg hdollar] at hp ⊢
      by_cases hpercent : c = '%' ∧ sequences = true
      · rw [if_pos hpercent] at hp ⊢
        exact hv.sequence hc hp hu hchunk
      rw [if_neg hpercent] at hp ⊢
      cases context with
      | heredoc expected =>
        simp only at hp ⊢
        by_cases hline : ending = true ∧ newlineFirst t = true
        · rw [if_pos hline] at hp ⊢
          obtain ⟨u', hu', hrel⟩ :=
            hspaces.heredocLine (hcontext expected rfl) (Option.some.inj hp) hu hchunk
              (hstop expected rfl)
          exact ⟨u', congrArg some hu', hrel⟩
        · rw [if_neg hline] at hp ⊢
          obtain ⟨rfl, rfl⟩ : _ ∧ _ := by simpa using hp
          exact ⟨v', rfl, hv⟩
      | quoted =>
        simp only at hp ⊢
        by_cases hslash : c = '\\'
        · rw [if_pos hslash] at hp ⊢
          rcases Option.map_eq_some_iff.1 hp with ⟨x, hx, he⟩
          obtain ⟨rfl, rfl⟩ : _ ∧ _ := by simpa using he
          rcases hv.escape? hx hu with ⟨u', hu', hrel⟩
          exact ⟨u', by rw [hu']; rfl, hrel⟩
        · rw [if_neg hslash] at hp ⊢
          obtain ⟨rfl, rfl⟩ : _ ∧ _ := by simpa using hp
          exact ⟨v', rfl, hv⟩
    · rw [← hstop] at hlength
      omega

end Respaced

end HclQuery.Grammar
