import HclQuery.Text.Extent
import HclQuery.Toml.Quoted

/-!
# TOML: tokens

A text is a row of marks, strings, bare words, blanks and newlines, each with the bytes it takes.
Comments count as blanks.

Main definitions:

- {lit}`Token`: a piece of text with its span.
- {lit}`tokens?`: the tokens of a text, unless it holds a malformed string or a stray character.

Main results:

- Theorem {lit}`kind?_length`: a token takes at least one character.
-/

namespace HclQuery.Toml

open Text (byteLength consumed)

/-- The bytes from `start` up to `stop`. -/
structure Span where
  start : Nat
  stop : Nat
  deriving DecidableEq, Repr

/-- The kinds of tokens. -/
inductive Kind where
  | dot
  | equals
  | comma
  | openBracket
  | closeBracket
  | openBrace
  | closeBrace
  | newline
  /-- Blanks or a comment. -/
  | blank (text : List Char)
  | quoted (q : Quoted)
  /-- Any other run of characters. -/
  | word (text : List Char)
  deriving DecidableEq, Repr

/-- A piece of text with its span. -/
structure Token where
  kind : Kind
  span : Span
  deriving DecidableEq, Repr

/-- The kind of a mark. -/
def mark? (c : Char) : Option Kind :=
  if c = '.' then some .dot
  else if c = '=' then some .equals
  else if c = ',' then some .comma
  else if c = '[' then some .openBracket
  else if c = ']' then some .closeBracket
  else if c = '{' then some .openBrace
  else if c = '}' then some .closeBrace
  else none

/-- The characters that may stand in a bare word. -/
def isWordChar (c : Char) : Bool :=
  isShown c && !isBlank c && (mark? c).isNone && c != '#' && c != '"' && c != '\''

/-- The kind of the token at the front of a text, and the rest. -/
def kind? : List Char → Option (Kind × List Char)
  | [] => none
  | c :: t =>
    match mark? c with
    | some k => some (k, t)
    | none =>
      if isBlank c then some (.blank (c :: t.takeWhile isBlank), t.dropWhile isBlank)
      else if c = '#' then some (.blank (c :: t.takeWhile isShown), t.dropWhile isShown)
      else if isWordChar c then
        some (.word (c :: t.takeWhile isWordChar), t.dropWhile isWordChar)
      else
        match newline? (c :: t) with
        | some r => some (.newline, r)
        | none => (quoted? (c :: t)).map fun (q, r) => (.quoted q, r)

/-- A token takes at least one character. -/
theorem kind?_length {t r : List Char} {k : Kind} (h : kind? t = some (k, r)) :
    r.length < t.length := by
  have drop (p : Char → Bool) (u : List Char) : (u.dropWhile p).length ≤ u.length :=
    (List.dropWhile_sublist p).length_le
  cases t with
  | nil => simp [kind?] at h
  | cons c t =>
    rw [kind?] at h
    split at h
    · obtain ⟨-, rfl⟩ : _ ∧ _ := by simpa using h
      simp
    · split at h
      · obtain ⟨-, rfl⟩ : _ ∧ _ := by simpa using h
        exact Nat.lt_succ_of_le (drop ..)
      · split at h
        · obtain ⟨-, rfl⟩ : _ ∧ _ := by simpa using h
          exact Nat.lt_succ_of_le (drop ..)
        · split at h
          · obtain ⟨-, rfl⟩ : _ ∧ _ := by simpa using h
            exact Nat.lt_succ_of_le (drop ..)
          · split at h
            · next hn =>
              obtain ⟨-, rfl⟩ : _ ∧ _ := by simpa using h
              exact newline?_length hn
            · obtain ⟨x, hx, hy⟩ := Option.map_eq_some_iff.1 h
              obtain ⟨-, rfl⟩ : _ ∧ _ := by simpa using hy
              exact quoted?_length hx

/-- The tokens of a text that begins at a byte offset. -/
def tokensFrom (start : Nat) (t : List Char) : Option (List Token) :=
  if t.isEmpty then some []
  else
    match _h : kind? t with
    | none => none
    | some (k, r) =>
      let stop := start + byteLength (consumed t r)
      (tokensFrom stop r).map (⟨k, ⟨start, stop⟩⟩ :: ·)
termination_by t.length
decreasing_by exact kind?_length _h

/-- The tokens of a text; a byte order mark may stand at its very front. -/
def tokens? (t : List Char) : Option (List Token) :=
  match t with
  | c :: r => if c = '\ufeff' then tokensFrom c.utf8Size r else tokensFrom 0 t
  | [] => some []

end HclQuery.Toml
