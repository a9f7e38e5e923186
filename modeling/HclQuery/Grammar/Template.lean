import HclQuery.Grammar.Trivia

/-!
# Grammar: text inside templates

A quoted string or a heredoc is read in chunks of text until it ends or a `${` or `%{` opens a
sequence.  Blanks between chunks are part of the text and are passed over; whether a newline was
among them decides where a heredoc may end.

Main definitions:

- {lit}`Context`: the kind of template that text stands in.
- {lit}`part?`: the next part of a template and the text after it.
- {lit}`literal?`: a string without sequences, as labels are.
-/

namespace HclQuery.Grammar

/-- The kind of template that text stands in. -/
inductive Context where
  | quoted
  | heredoc (marker : List Char)
  deriving DecidableEq, Repr

/-- A part of a template. -/
inductive Part where
  /-- A stretch of text. -/
  | chunk
  /-- The `${` of an interpolation. -/
  | interpolation
  /-- The `%{` of a directive. -/
  | directive
  /-- The end of the template. -/
  | finish
  deriving DecidableEq, Repr

/-- A newline is among the blanks in front of a text. -/
def newlineFirst (t : List Char) : Bool :=
  (t.takeWhile isSpace).contains '\n'

/-- A hexadecimal digit of either case. -/
def isHexDigit (c : Char) : Bool :=
  ('0' ≤ c && c ≤ '9') || ('a' ≤ c && c ≤ 'f') || ('A' ≤ c && c ≤ 'F')

/-- The text after so many hexadecimal digits. -/
def hexDigits? (n : Nat) (t : List Char) : Option (List Char) :=
  if (t.take n).length = n ∧ (t.take n).all isHexDigit then some (t.drop n) else none

/-- The text after an escape, of which the backslash has been read. -/
def escape? (t : List Char) : Option (List Char) :=
  match t with
  | [] => none
  | c :: u =>
    if c = '"' ∨ c = 'n' ∨ c = 'r' ∨ c = 't' ∨ c = '\\' then some u
    else if c = 'u' then hexDigits? 4 u
    else if c = 'U' then hexDigits? 8 u
    else none

/-- What a marker character begins, given the text after it: a sequence before a brace, and text
otherwise, a doubled marker being one stretch with the brace after it. -/
def marker (c : Char) (sequence : Part) (t : List Char) : Part × List Char :=
  match t with
  | [] => (.chunk, [])
  | d :: u =>
    if d = '{' then (sequence, u)
    else if d = c then (.chunk, if u.head? = some '{' then u.drop 1 else u)
    else (.chunk, d :: u)

/-- The text after the marker of a heredoc, or where it first differs from it. -/
def matchMarker : List Char → List Char → Bool × List Char
  | [], t => (true, t)
  | _ :: _, [] => (false, [])
  | m :: ms, c :: t => if c = m then matchMarker ms t else (false, c :: t)

/-- The blanks that may stand after the marker on the last line of a heredoc. -/
def isLineSpace (c : Char) : Bool :=
  isSpace c && c != '\n'

/-- A line of a heredoc that may be its last one: it is if it holds the marker alone.  Otherwise
what agrees with the marker is text, and so is the character that follows a marker in full. -/
def heredocLine (expected t : List Char) : Part × List Char :=
  match matchMarker expected t with
  | (false, u) => (.chunk, u)
  | (true, u) =>
    let v := u.dropWhile isLineSpace
    if v.head? = some '\n' then (.finish, u) else (.chunk, v.drop 1)

/-- The next part of a template and the text after it.  Sequences are read only where they are
allowed, and the template may end only where its end is. -/
def part? (context : Context) (sequences ending : Bool) (t : List Char) :
    Option (Part × List Char) :=
  match t.dropWhile isSpace with
  | [] => none
  | c :: u =>
    if c = '\x00' then none
    else if c = '"' ∧ context = .quoted ∧ ending then some (.finish, u)
    else if c = '$' ∧ sequences then some (marker c .interpolation u)
    else if c = '%' ∧ sequences then some (marker c .directive u)
    else
      match context with
      | .heredoc expected =>
        if ending ∧ newlineFirst t then some (heredocLine expected (c :: u))
        else some (.chunk, u)
      | .quoted =>
        if c = '\\' then (escape? u).map fun v => (.chunk, v) else some (.chunk, u)

/-- Hexadecimal digits leave no more than there was. -/
theorem hexDigits?_length {n : Nat} {t u : List Char} (h : hexDigits? n t = some u) :
    u.length ≤ t.length := by
  unfold hexDigits? at h
  split at h
  · obtain rfl : t.drop n = u := by simpa using h
    simp
  · simp at h

/-- An escape takes at least one character. -/
theorem escape?_length {t u : List Char} (h : escape? t = some u) : u.length < t.length := by
  unfold escape? at h
  split at h
  · simp at h
  · split at h
    · obtain rfl : _ = u := by simpa using h
      simp
    · split at h
      · exact Nat.lt_succ_of_le (hexDigits?_length h)
      · split at h
        · exact Nat.lt_succ_of_le (hexDigits?_length h)
        · simp at h

/-- Reading a marker takes nothing back. -/
theorem marker_length_le (c : Char) (sequence : Part) (t : List Char) :
    (marker c sequence t).2.length ≤ t.length := by
  unfold marker
  split
  · simp
  · split
    · simp
    · split
      · split
        · simp
          omega
        · simp
      · simp

/-- Looking for the marker of a heredoc takes nothing back. -/
theorem matchMarker_length_le (expected t : List Char) :
    (matchMarker expected t).2.length ≤ t.length := by
  fun_induction matchMarker expected t <;> simp_all
  all_goals omega

/-- Reading a line of a heredoc takes nothing back. -/
theorem heredocLine_length_le (expected t : List Char) :
    (heredocLine expected t).2.length ≤ t.length := by
  have hm := matchMarker_length_le expected t
  unfold heredocLine
  split
  · next h => rw [h] at hm; exact hm
  · next u h =>
    rw [h] at hm
    have := (List.dropWhile_sublist isLineSpace (l := u)).length_le
    simp only
    split
    · exact hm
    · have hd : (u.dropWhile isLineSpace).length ≤ u.length := this
      simp only [List.length_drop] at hm ⊢
      omega

/-- A heredoc ends or goes on at a newline, so a line of it takes what is in front of it, too. -/
theorem newlineFirst_length {t : List Char} (h : newlineFirst t = true) :
    (t.dropWhile isSpace).length < t.length := by
  have hne : t.takeWhile isSpace ≠ [] := by
    intro h0
    simp [newlineFirst, h0] at h
  have hl := congrArg List.length (List.takeWhile_append_dropWhile (p := isSpace) (l := t))
  have := List.length_pos_iff.2 hne
  simp only [List.length_append] at hl
  omega

/-- A part takes at least one character. -/
theorem part?_length {context : Context} {sequences ending : Bool} {t u : List Char} {p : Part}
    (h : part? context sequences ending t = some (p, u)) : u.length < t.length := by
  have hle := (List.dropWhile_sublist isSpace (l := t)).length_le
  unfold part? at h
  split at h
  · simp at h
  · next c v hv =>
    rw [hv, List.length_cons] at hle
    have done {q : Part × List Char} (hq : q.2.length ≤ v.length) (he : some q = some (p, u)) :
        u.length < t.length := by
      obtain rfl : q = (p, u) := by simpa using he
      exact Nat.lt_of_le_of_lt hq (Nat.lt_of_succ_le hle)
    split at h
    · simp at h
    · split at h
      · exact done (Nat.le_refl _) h
      · split at h
        · exact done (marker_length_le ..) h
        · split at h
          · exact done (marker_length_le ..) h
          · split at h
            · next expected _ =>
              split at h
              · next hn =>
                have hlt := newlineFirst_length hn.2
                have := heredocLine_length_le expected (c :: v)
                obtain he : heredocLine expected (c :: v) = (p, u) := by simpa using h
                rw [hv] at hlt
                rw [he] at this
                exact Nat.lt_of_le_of_lt this hlt
              · exact done (Nat.le_refl _) h
            · split at h
              · cases hx : escape? v with
                | none => simp [hx] at h
                | some w =>
                  have := escape?_length hx
                  exact done (q := (.chunk, w)) (Nat.le_of_lt this) (by simpa [hx] using h)
              · exact done (Nat.le_refl _) h

/-- The text after a string without sequences, of which the opening quote has been read. -/
def literal? (t : List Char) : Option (List Char) :=
  match _h : part? .quoted false true t with
  | none => none
  | some (.finish, u) => some u
  | some (_, u) => literal? u
termination_by t.length
decreasing_by exact part?_length _h

/-- A string takes at least its quotes. -/
theorem literal?_length {t u : List Char} (h : literal? t = some u) : u.length < t.length := by
  fun_induction literal? t with
  | case1 => simp at h
  | case2 t v hp =>
    obtain rfl : v = u := by simpa using h
    exact part?_length hp
  | case3 t p v _ hp ih => exact Nat.lt_trans (ih h) (part?_length hp)

end HclQuery.Grammar
