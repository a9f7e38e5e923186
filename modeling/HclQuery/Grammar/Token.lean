import HclQuery.Grammar.Template
import HclQuery.Grammar.Word

/-!
# Grammar: tokens of expressions

The tokens that expressions are made of, and the longest one at the front of a text among those that
are acceptable there.

Main results:

- Theorem {lit}`lexCode_length`: a token takes at least one character.
-/

namespace HclQuery.Grammar

/-- Brackets, separators and operators. -/
inductive Symbol where
  | quote
  | openBracket
  | closeBracket
  | openBrace
  | closeBrace
  | openParen
  | closeParen
  | comma
  | colon
  | assign
  | arrow
  | question
  | dot
  | ellipsis
  | attrSplat
  | fullSplat
  | strip
  | minus
  | bang
  | binary
  deriving DecidableEq, Repr

/-- The words with a meaning of their own. -/
inductive Keyword where
  | true_
  | false_
  | null
  | for_
  | in_
  | if_
  | else_
  | endif
  | endfor
  deriving DecidableEq, Repr

/-- The spellings of the symbols, longer ones first. -/
def spellings : List (List Char × Symbol) := [
  (['.', '.', '.'], .ellipsis), (['[', '*', ']'], .fullSplat), (['.', '*'], .attrSplat),
  (['=', '='], .binary), (['=', '>'], .arrow), (['!', '='], .binary), (['>', '='], .binary),
  (['<', '='], .binary), (['&', '&'], .binary), (['|', '|'], .binary), (['"'], .quote),
  (['['], .openBracket), ([']'], .closeBracket), (['{'], .openBrace), (['}'], .closeBrace),
  (['('], .openParen), ([')'], .closeParen), ([','], .comma), ([':'], .colon), (['='], .assign),
  (['?'], .question), (['.'], .dot), (['~'], .strip), (['-'], .minus), (['!'], .bang),
  (['+'], .binary), (['*'], .binary), (['/'], .binary), (['%'], .binary), (['<'], .binary),
  (['>'], .binary)]

/-- The spellings of the keywords; no keyword is the front of one that comes after it. -/
def keywords : List (List Char × Keyword) := [
  (['t', 'r', 'u', 'e'], .true_), (['f', 'a', 'l', 's', 'e'], .false_),
  (['n', 'u', 'l', 'l'], .null), (['f', 'o', 'r'], .for_), (['i', 'n'], .in_), (['i', 'f'], .if_),
  (['e', 'l', 's', 'e'], .else_), (['e', 'n', 'd', 'i', 'f'], .endif),
  (['e', 'n', 'd', 'f', 'o', 'r'], .endfor)]

/-- A token of an expression. -/
inductive Token where
  /-- An identifier. -/
  | word
  | keyword (k : Keyword)
  /-- A number. -/
  | numeral
  /-- The digits of an index after a dot. -/
  | digits
  | symbol (s : Symbol)
  /-- The opening of a heredoc with its marker. -/
  | heredoc (marker : List Char)
  /-- A part of a template. -/
  | part (p : Part)
  deriving DecidableEq, Repr

/-- The characters of a heredoc marker. -/
def isMarkerPart (c : Char) : Bool :=
  isHexPart c || c == '_' || c == '-'

/-- The marker of a heredoc and the text after it; blanks may stand in front of it, and it may be
empty, but something has to follow. -/
def heredocMarker? (t : List Char) : Option (List Char × List Char) :=
  let u := t.dropWhile isSpace
  if u.isEmpty ∨ u.head? = some '\x00' then none
  else some (u.takeWhile isMarkerPart, u.dropWhile isMarkerPart)

/-- The heredoc opened by a text after its `<<`. -/
def heredoc? (t : List Char) : Option (List Char × List Char) :=
  heredocMarker? (if t.head? = some '-' then t.drop 1 else t)

/-- The acceptable symbol that a text begins with, and the rest. -/
def symbol? (accepts : Token → Bool) (t : List Char) : Option (Token × List Char) :=
  (spellings.find? fun s => s.1.isPrefixOf t && accepts (.symbol s.2)).map fun s =>
    (.symbol s.2, t.drop s.1.length)

/-- The acceptable keyword that a text begins with, and the rest. -/
def keyword? (accepts : Token → Bool) (t : List Char) : Option (Token × List Char) :=
  (keywords.find? fun k => k.1.isPrefixOf t && accepts (.keyword k.2)).map fun k =>
    (.keyword k.2, t.drop k.1.length)

/-- The keyword or identifier that a text begins with, and the rest.  A keyword only wins over an
identifier as long as itself, unless no identifier is acceptable. -/
def word? (accepts : Token → Bool) (t : List Char) : Option (Token × List Char) :=
  match identifier? t with
  | none => none
  | some (name, rest) =>
    match keywords.find? fun k => k.1 == name && accepts (.keyword k.2) with
    | some k => some (.keyword k.2, rest)
    | none => if accepts .word then some (.word, rest) else keyword? accepts t

/-- The numeral or index that a text begins with, and the rest. -/
def number? (accepts : Token → Bool) (t : List Char) : Option (Token × List Char) :=
  if accepts .numeral then (numeral? t).map fun r => (.numeral, r)
  else if accepts .digits then (digits? t).map fun r => (.digits, r)
  else none

/-- The longest acceptable token at the front of a text without blanks in front. -/
def lexCode (accepts : Token → Bool) (t : List Char) : Option (Token × List Char) :=
  match t with
  | [] => none
  | c :: u =>
    if isNameStart c then word? accepts t
    else if isDigit c then number? accepts t
    else if c = '<' ∧ u.head? = some '<' ∧ accepts (.heredoc []) then
      (heredoc? (u.drop 1)).map fun h => (.heredoc h.1, h.2)
    else if c = '/' ∧ (u.head? = some '/' ∨ u.head? = some '*') then none
    else symbol? accepts t

/-- The marker of a heredoc leaves no more than there was. -/
theorem heredocMarker?_length {t m r : List Char} (h : heredocMarker? t = some (m, r)) :
    r.length ≤ t.length := by
  simp only [heredocMarker?] at h
  split at h
  · simp at h
  · obtain ⟨-, rfl⟩ : _ ∧ _ := by simpa using h
    exact Nat.le_trans (List.dropWhile_suffix _).length_le (List.dropWhile_suffix _).length_le

/-- The opening of a heredoc leaves no more than there was. -/
theorem heredoc?_length {t m r : List Char} (h : heredoc? t = some (m, r)) :
    r.length ≤ t.length := by
  have := heredocMarker?_length h
  split at this
  · simp only [List.length_drop] at this
    omega
  · exact this

/-- A spelling that is found in a table without empty spellings takes at least one character. -/
theorem length_drop_spelling {α : Type} {table : List (List Char × α)} {p : List Char × α → Bool}
    (hne : ∀ s ∈ table, s.1 ≠ []) {s : List Char × α} {t : List Char}
    (h : table.find? (fun s => s.1.isPrefixOf t && p s) = some s) :
    (t.drop s.1.length).length < t.length := by
  have hs := List.length_pos_iff.2 (hne s (List.mem_of_find?_eq_some h))
  have hp := List.find?_some h
  simp only [Bool.and_eq_true, List.isPrefixOf_iff_prefix] at hp
  have := hp.1.length_le
  simp only [List.length_drop]
  omega

/-- A symbol takes at least one character. -/
theorem symbol?_length {accepts : Token → Bool} {t r : List Char} {k : Token}
    (h : symbol? accepts t = some (k, r)) : r.length < t.length := by
  unfold symbol? at h
  cases hf : spellings.find? fun s => s.1.isPrefixOf t && accepts (.symbol s.2) with
  | none => simp [hf] at h
  | some s =>
    have := length_drop_spelling (p := fun s => accepts (.symbol s.2)) (by decide) hf
    obtain ⟨-, rfl⟩ : _ ∧ _ := by simpa [hf] using h
    exact this

/-- A keyword takes at least one character. -/
theorem keyword?_length {accepts : Token → Bool} {t r : List Char} {k : Token}
    (h : keyword? accepts t = some (k, r)) : r.length < t.length := by
  unfold keyword? at h
  cases hf : keywords.find? fun s => s.1.isPrefixOf t && accepts (.keyword s.2) with
  | none => simp [hf] at h
  | some s =>
    have := length_drop_spelling (p := fun s => accepts (.keyword s.2)) (by decide) hf
    obtain ⟨-, rfl⟩ : _ ∧ _ := by simpa [hf] using h
    exact this

/-- A word takes at least one character. -/
theorem word?_length {accepts : Token → Bool} {t r : List Char} {k : Token}
    (h : word? accepts t = some (k, r)) : r.length < t.length := by
  unfold word? at h
  split at h
  · simp at h
  · next hi =>
    have := identifier?_length hi
    split at h
    · obtain ⟨-, rfl⟩ : _ ∧ _ := by simpa using h
      exact this
    · split at h
      · obtain ⟨-, rfl⟩ : _ ∧ _ := by simpa using h
        exact this
      · exact keyword?_length h

/-- A number takes at least one character. -/
theorem number?_length {accepts : Token → Bool} {t r : List Char} {k : Token}
    (h : number? accepts t = some (k, r)) : r.length < t.length := by
  unfold number? at h
  split at h
  · obtain ⟨r', hr, he⟩ := Option.map_eq_some_iff.1 h
    obtain ⟨-, rfl⟩ : _ ∧ _ := by simpa using he
    exact numeral?_length hr
  · split at h
    · obtain ⟨r', hr, he⟩ := Option.map_eq_some_iff.1 h
      obtain ⟨-, rfl⟩ : _ ∧ _ := by simpa using he
      exact digits?_length hr
    · simp at h

/-- A token takes at least one character. -/
theorem lexCode_length {accepts : Token → Bool} {t r : List Char} {k : Token}
    (h : lexCode accepts t = some (k, r)) : r.length < t.length := by
  unfold lexCode at h
  split at h
  · simp at h
  · next c u =>
    split at h
    · exact word?_length h
    · split at h
      · exact number?_length h
      · split at h
        · obtain ⟨x, hx, he⟩ := Option.map_eq_some_iff.1 h
          obtain ⟨-, rfl⟩ : _ ∧ _ := by simpa using he
          have := heredoc?_length (m := x.1) (r := x.2) hx
          simp only [List.length_drop] at this
          simp only [List.length_cons]
          omega
        · split at h
          · simp at h
          · exact symbol?_length h

end HclQuery.Grammar
