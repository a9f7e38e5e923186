import HclQuery.Text.Hex

/-!
# TOML: quoted strings

The four kinds of strings: basic ones, in which a backslash begins an escape, and literal ones, in
which every character stands for itself, each of them on one line or on several lines.

Main results:

- Theorem {lit}`quoted?_length`: a string takes at least one character.
-/

namespace HclQuery.Toml

open Text (hexRun? scalar?)

/-- The characters that may stand in strings and comments. -/
def isShown (c : Char) : Bool :=
  c == '\t' || (' ' ≤ c && c != '\x7f')

/-- The blanks within a line. -/
def isBlank (c : Char) : Bool :=
  c == ' ' || c == '\t'

/-- The text after the newline at its front, if there is one. -/
def newline? : List Char → Option (List Char)
  | '\n' :: t => some t
  | '\r' :: '\n' :: t => some t
  | _ => none

/-! ## Escapes -/

/-- The character whose code point has so many digits at the front of a text, and the rest. -/
def codePoint? (width : Nat) (t : List Char) : Option (Char × List Char) :=
  let digits := t.take width
  if digits.length = width then
    ((hexRun? 0 digits).bind scalar?).map fun c => (c, t.drop width)
  else none

/-- The character that a letter stands for after a backslash. -/
def escapeLetter? (c : Char) : Option Char :=
  if c = 'b' then some '\x08'
  else if c = 't' then some '\t'
  else if c = 'n' then some '\n'
  else if c = 'f' then some '\x0c'
  else if c = 'r' then some '\r'
  else if c = 'e' then some '\x1b'
  else if c = '"' then some '"'
  else if c = '\\' then some '\\'
  else none

/-- How many digits follow the letter of a code point escape. -/
def escapeWidth? (c : Char) : Option Nat :=
  if c = 'x' then some 2 else if c = 'u' then some 4 else if c = 'U' then some 8 else none

/-- The character that an escape stands for, after its backslash, and the rest. -/
def escape? : List Char → Option (Char × List Char)
  | [] => none
  | c :: t =>
    match escapeLetter? c with
    | some d => some (d, t)
    | none => (escapeWidth? c).bind fun width => codePoint? width t

/-- An escaped code point leaves no more than there was. -/
theorem codePoint?_length {width : Nat} {t r : List Char} {c : Char}
    (h : codePoint? width t = some (c, r)) : r.length ≤ t.length := by
  simp only [codePoint?] at h
  split at h
  · obtain ⟨x, -, hx⟩ := Option.map_eq_some_iff.1 h
    obtain ⟨-, rfl⟩ : _ ∧ _ := by simpa using hx
    simp
  · simp at h

/-- An escape takes at least one character. -/
theorem escape?_length {t r : List Char} {c : Char} (h : escape? t = some (c, r)) :
    r.length < t.length := by
  cases t with
  | nil => simp [escape?] at h
  | cons d t =>
    rw [escape?] at h
    split at h
    · obtain ⟨-, rfl⟩ : _ ∧ _ := by simpa using h
      simp
    · obtain ⟨width, -, hw⟩ := Option.bind_eq_some_iff.1 h
      exact Nat.lt_succ_of_le (codePoint?_length hw)

/-- The text after the blanks and newlines at its front. -/
def skipLayout : List Char → List Char
  | [] => []
  | c :: t =>
    if isBlank c || c == '\n' then skipLayout t
    else
      match newline? (c :: t) with
      | some _ => skipLayout t
      | none => c :: t

/-- Skipping blanks and newlines takes nothing back. -/
theorem skipLayout_length_le (t : List Char) : (skipLayout t).length ≤ t.length := by
  induction t with
  | nil => simp [skipLayout]
  | cons c t ih =>
    rw [skipLayout]
    split
    · exact Nat.le_succ_of_le ih
    · split
      · exact Nat.le_succ_of_le ih
      · exact Nat.le_refl _

/-! ## Strings on one line -/

/-- The characters of a basic string up to its closing quote, and the rest. -/
def basic? : List Char → Option (List Char × List Char)
  | [] => none
  | c :: t =>
    if c = '"' then some ([], t)
    else if c = '\\' then
      match _h : escape? t with
      | none => none
      | some (d, u) => (basic? u).map fun (s, r) => (d :: s, r)
    else if isShown c then (basic? t).map fun (s, r) => (c :: s, r)
    else none
termination_by t => t.length
decreasing_by
  · have := escape?_length _h
    simp only [List.length_cons]
    omega
  · simp

/-- The characters of a literal string up to its closing quote, and the rest. -/
def literal? : List Char → Option (List Char × List Char)
  | [] => none
  | c :: t =>
    if c = '\'' then some ([], t)
    else if isShown c then (literal? t).map fun (s, r) => (c :: s, r)
    else none

/-! ## Strings on several lines -/

/-- The text after the line that a string on several lines may begin with, if it is empty. -/
def dropNewline (t : List Char) : List Char :=
  (newline? t).getD t

/-- The number of quotes at the front of a text, of which a closing one takes at most five. -/
def quoteRun (quote : Char) (t : List Char) : Nat :=
  min 5 (t.takeWhile (· == quote)).length

/-- The line break at the front of a text: the characters that stand for it, and the rest. -/
def lineBreak? : List Char → Option (List Char × List Char)
  | '\n' :: t => some (['\n'], t)
  | '\r' :: '\n' :: t => some (['\r', '\n'], t)
  | _ => none

/-- The text after a backslash at the end of a line, and after the layout that it swallows. -/
def continuation? (t : List Char) : Option (List Char) :=
  (newline? (t.dropWhile isBlank)).map skipLayout

theorem newline?_length {t r : List Char} (h : newline? t = some r) : r.length < t.length := by
  unfold newline? at h
  split at h <;> simp at h <;> subst h <;> simp only [List.length_cons] <;> omega

/-- A line break takes at least one character. -/
theorem lineBreak?_length {t r s : List Char} (h : lineBreak? t = some (s, r)) :
    r.length < t.length := by
  unfold lineBreak? at h
  split at h <;> simp at h <;> obtain ⟨-, rfl⟩ := h <;>
    simp only [List.length_cons] <;> omega

/-- A line continuation leaves no more than there was. -/
theorem continuation?_length {t r : List Char} (h : continuation? t = some r) :
    r.length ≤ t.length := by
  obtain ⟨u, hu, rfl⟩ := Option.map_eq_some_iff.1 h
  have h1 := newline?_length hu
  have h2 := skipLayout_length_le u
  have h3 := (List.dropWhile_sublist isBlank (l := t)).length_le
  omega

/-- The characters of a basic string on several lines up to its closing quotes, and the rest.  Up to
two of the quotes in front of the closing ones belong to the string. -/
def basicLines? : List Char → Option (List Char × List Char)
  | [] => none
  | c :: t =>
    let run := quoteRun '"' (c :: t)
    if 3 ≤ run then some (List.replicate (run - 3) '"', (c :: t).drop run)
    else if c = '\\' then
      match _h : continuation? t with
      | some u => basicLines? u
      | none =>
        match _h2 : escape? t with
        | none => none
        | some (d, u) => (basicLines? u).map fun (s, r) => (d :: s, r)
    else if isShown c then (basicLines? t).map fun (s, r) => (c :: s, r)
    else
      match _h3 : lineBreak? (c :: t) with
      | none => none
      | some (b, u) => (basicLines? u).map fun (s, r) => (b ++ s, r)
termination_by t => t.length
decreasing_by
  · have := continuation?_length _h
    simp only [List.length_cons]
    omega
  · have := escape?_length _h2
    simp only [List.length_cons]
    omega
  · simp
  · exact lineBreak?_length _h3

/-- The characters of a literal string on several lines up to its closing quotes, and the rest. -/
def literalLines? : List Char → Option (List Char × List Char)
  | [] => none
  | c :: t =>
    let run := quoteRun '\'' (c :: t)
    if 3 ≤ run then some (List.replicate (run - 3) '\'', (c :: t).drop run)
    else if isShown c then (literalLines? t).map fun (s, r) => (c :: s, r)
    else
      match _h : lineBreak? (c :: t) with
      | none => none
      | some (b, u) => (literalLines? u).map fun (s, r) => (b ++ s, r)
termination_by t => t.length
decreasing_by
  · simp
  · exact lineBreak?_length _h

/-! ## All strings -/

/-- A string. -/
structure Quoted where
  text : List Char
  /-- Whether it may go over several lines. -/
  multiline : Bool
  deriving DecidableEq, Repr

/-- The string at the front of a text, and the rest. -/
def quoted? : List Char → Option (Quoted × List Char)
  | '"' :: '"' :: '"' :: t => (basicLines? (dropNewline t)).map fun (s, r) => (⟨s, true⟩, r)
  | '\'' :: '\'' :: '\'' :: t => (literalLines? (dropNewline t)).map fun (s, r) => (⟨s, true⟩, r)
  | '"' :: t => (basic? t).map fun (s, r) => (⟨s, false⟩, r)
  | '\'' :: t => (literal? t).map fun (s, r) => (⟨s, false⟩, r)
  | _ => none

/-! ## Lengths -/

/-- A basic string takes at least one character. -/
theorem basic?_length {t s r : List Char} (h : basic? t = some (s, r)) : r.length < t.length := by
  fun_induction basic? t generalizing s r with
  | case1 => simp at h
  | case2 => 
    obtain ⟨-, rfl⟩ : _ ∧ _ := by simpa using h
    simp
  | case3 => simp at h
  | case4 t d u he _ ih =>
    obtain ⟨x, hx, hy⟩ := Option.map_eq_some_iff.1 h
    obtain ⟨-, rfl⟩ : _ ∧ _ := by simpa using hy
    have h1 := ih hx
    have h2 := escape?_length he
    simp only [List.length_cons]
    omega
  | case5 c t _ _ _ ih =>
    obtain ⟨x, hx, hy⟩ := Option.map_eq_some_iff.1 h
    obtain ⟨-, rfl⟩ : _ ∧ _ := by simpa using hy
    exact Nat.lt_succ_of_lt (ih hx)
  | case6 => simp at h

/-- A literal string takes at least one character. -/
theorem literal?_length {t s r : List Char} (h : literal? t = some (s, r)) :
    r.length < t.length := by
  fun_induction literal? t generalizing s r with
  | case1 => simp at h
  | case2 =>
    obtain ⟨-, rfl⟩ : _ ∧ _ := by simpa using h
    simp
  | case3 c t _ _ ih =>
    obtain ⟨x, hx, hy⟩ := Option.map_eq_some_iff.1 h
    obtain ⟨-, rfl⟩ : _ ∧ _ := by simpa using hy
    exact Nat.lt_succ_of_lt (ih hx)
  | case4 => simp at h

/-- A basic string of several lines takes at least one character. -/
theorem basicLines?_length {t s r : List Char} (h : basicLines? t = some (s, r)) :
    r.length < t.length := by
  fun_induction basicLines? t generalizing s r with
  | case1 => simp at h
  | case2 =>
    rename_i hr
    obtain ⟨-, rfl⟩ : _ ∧ _ := by simpa using h
    simp only [List.length_drop, List.length_cons]
    omega
  | case3 =>
    rename_i hc _ _ ih
    have h1 := ih h
    have h2 := continuation?_length hc
    simp only [List.length_cons]
    omega
  | case4 => simp at h
  | case5 =>
    rename_i he _ _ ih
    obtain ⟨x, hx, hy⟩ := Option.map_eq_some_iff.1 h
    obtain ⟨-, rfl⟩ : _ ∧ _ := by simpa using hy
    have h1 := ih hx
    have h2 := escape?_length he
    simp only [List.length_cons]
    omega
  | case6 =>
    rename_i ih
    obtain ⟨x, hx, hy⟩ := Option.map_eq_some_iff.1 h
    obtain ⟨-, rfl⟩ : _ ∧ _ := by simpa using hy
    exact Nat.lt_succ_of_lt (ih hx)
  | case7 => simp at h
  | case8 =>
    rename_i hb ih
    obtain ⟨x, hx, hy⟩ := Option.map_eq_some_iff.1 h
    obtain ⟨-, rfl⟩ : _ ∧ _ := by simpa using hy
    exact Nat.lt_trans (ih hx) (lineBreak?_length hb)

/-- A literal string of several lines takes at least one character. -/
theorem literalLines?_length {t s r : List Char} (h : literalLines? t = some (s, r)) :
    r.length < t.length := by
  fun_induction literalLines? t generalizing s r with
  | case1 => simp at h
  | case2 =>
    rename_i hr
    obtain ⟨-, rfl⟩ : _ ∧ _ := by simpa using h
    simp only [List.length_drop, List.length_cons]
    omega
  | case3 =>
    rename_i ih
    obtain ⟨x, hx, hy⟩ := Option.map_eq_some_iff.1 h
    obtain ⟨-, rfl⟩ : _ ∧ _ := by simpa using hy
    exact Nat.lt_succ_of_lt (ih hx)
  | case4 => simp at h
  | case5 =>
    rename_i hb ih
    obtain ⟨x, hx, hy⟩ := Option.map_eq_some_iff.1 h
    obtain ⟨-, rfl⟩ : _ ∧ _ := by simpa using hy
    exact Nat.lt_trans (ih hx) (lineBreak?_length hb)

/-- Dropping the first newline takes nothing back. -/
theorem dropNewline_length_le (t : List Char) : (dropNewline t).length ≤ t.length := by
  unfold dropNewline
  cases h : newline? t with
  | none => simp
  | some u => exact Nat.le_of_lt (newline?_length h)

/-- A string takes at least one character. -/
theorem quoted?_length {t r : List Char} {q : Quoted} (h : quoted? t = some (q, r)) :
    r.length < t.length := by
  unfold quoted? at h
  split at h
  · next t =>
    obtain ⟨x, hx, hy⟩ := Option.map_eq_some_iff.1 h
    obtain ⟨-, rfl⟩ : _ ∧ _ := by simpa using hy
    have h1 := basicLines?_length hx
    have h2 := dropNewline_length_le t
    simp only [List.length_cons]
    omega
  · next t =>
    obtain ⟨x, hx, hy⟩ := Option.map_eq_some_iff.1 h
    obtain ⟨-, rfl⟩ : _ ∧ _ := by simpa using hy
    have h1 := literalLines?_length hx
    have h2 := dropNewline_length_le t
    simp only [List.length_cons]
    omega
  · obtain ⟨x, hx, hy⟩ := Option.map_eq_some_iff.1 h
    obtain ⟨-, rfl⟩ : _ ∧ _ := by simpa using hy
    exact Nat.lt_succ_of_lt (basic?_length hx)
  · obtain ⟨x, hx, hy⟩ := Option.map_eq_some_iff.1 h
    obtain ⟨-, rfl⟩ : _ ∧ _ := by simpa using hy
    exact Nat.lt_succ_of_lt (literal?_length hx)
  · simp at h

end HclQuery.Toml
