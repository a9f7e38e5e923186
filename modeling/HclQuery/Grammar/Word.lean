import HclQuery.Text.CharClass

/-!
# Grammar: words and numbers

Identifiers and numerals, each as long as the text allows.

Main results:

- Theorem {lit}`identifier?_append`: an identifier and what follows it make up the text.
- Theorem {lit}`numeral?_length`: a numeral takes at least one character.
-/

namespace HclQuery.Grammar

open Text

/-- The characters that may begin an identifier. -/
def isNameStart (c : Char) : Bool :=
  isIdStart c || c == '_'

/-- The characters that may stand inside an identifier; two colons may as well. -/
def isNamePart (c : Char) : Bool :=
  isIdContinue c || c == '-'

/-- The text divided after the longest run that an identifier goes on with. -/
def nameRest : List Char → List Char × List Char
  | [] => ([], [])
  | [c] => if isNamePart c then ([c], []) else ([], [c])
  | c :: d :: t =>
    if isNamePart c then
      let (name, rest) := nameRest (d :: t)
      (c :: name, rest)
    else if c = ':' ∧ d = ':' then
      let (name, rest) := nameRest t
      (c :: d :: name, rest)
    else ([], c :: d :: t)

/-- The identifier at the front of a text, and the rest. -/
def identifier? : List Char → Option (List Char × List Char)
  | [] => none
  | c :: t =>
    if isNameStart c then
      let (name, rest) := nameRest t
      some (c :: name, rest)
    else none

/-- A decimal digit. -/
def isDigit (c : Char) : Bool :=
  '0' ≤ c && c ≤ '9'

/-- The characters of a hexadecimal numeral after its mark, of which any letter is accepted. -/
def isHexPart (c : Char) : Bool :=
  isDigit c || ('a' ≤ c && c ≤ 'z') || ('A' ≤ c && c ≤ 'Z')

/-- The text after the digits at its front, if there are any. -/
def digits? (t : List Char) : Option (List Char) :=
  if t.head?.any isDigit then some (t.dropWhile isDigit) else none

/-- The text after an exponent, if there is one. -/
def afterExponent (t : List Char) : List Char :=
  match t with
  | e :: u =>
    if e = 'e' ∨ e = 'E' then
      let v := if u.head? = some '-' ∨ u.head? = some '+' then u.drop 1 else u
      (digits? v).getD t
    else t
  | [] => []

/-- The text after a fraction with its exponent, if there is one. -/
def afterFraction (t : List Char) : List Char :=
  match t with
  | '.' :: u => ((digits? u).map afterExponent).getD t
  | _ => t

/-- The text after the numeral at its front. -/
def numeral? (t : List Char) : Option (List Char) :=
  match t with
  | '0' :: 'x' :: u =>
    if u.head?.any isHexPart then some (u.dropWhile isHexPart) else some ('x' :: u)
  | _ => (digits? t).map afterFraction

/-- The rest of a name and what follows it are the text. -/
theorem nameRest_append (t : List Char) : (nameRest t).1 ++ (nameRest t).2 = t := by
  fun_induction nameRest t <;> simp_all

/-- An identifier and what follows it make up the text. -/
theorem identifier?_append {t name rest : List Char} (h : identifier? t = some (name, rest)) :
    name ++ rest = t := by
  cases t with
  | nil => simp [identifier?] at h
  | cons c t =>
    rw [identifier?] at h
    split at h
    · obtain ⟨rfl, rfl⟩ : _ ∧ _ := by simpa using h
      simp [nameRest_append]
    · simp at h

/-- An identifier takes at least one character. -/
theorem identifier?_length {t name rest : List Char} (h : identifier? t = some (name, rest)) :
    rest.length < t.length := by
  have happ := identifier?_append h
  cases t with
  | nil => simp [identifier?] at h
  | cons c t =>
    rw [identifier?] at h
    split at h
    · obtain ⟨rfl, rfl⟩ : _ ∧ _ := by simpa using h
      have := congrArg List.length (nameRest_append t)
      simp only [List.length_append] at this
      simp only [List.length_cons]
      omega
    · simp at h

/-- Digits take at least one character. -/
theorem digits?_length {t rest : List Char} (h : digits? t = some rest) :
    rest.length < t.length := by
  cases t with
  | nil => simp [digits?] at h
  | cons c t =>
    rw [digits?] at h
    split at h
    · next hd =>
      have hc : isDigit c = true := by simpa using hd
      obtain rfl : t.dropWhile isDigit = rest := by simpa [hc] using h
      exact Nat.lt_succ_of_le (List.dropWhile_suffix _).length_le
    · simp at h

/-- An exponent takes nothing back. -/
theorem afterExponent_length_le (t : List Char) : (afterExponent t).length ≤ t.length := by
  unfold afterExponent
  split
  · next e u =>
    split
    · simp only
      split <;> (
        cases hd : digits? _ with
        | none => simp
        | some r =>
          have := digits?_length hd
          simp only [Option.getD_some, List.length_drop, List.length_cons] at *
          omega)
    · simp
  · simp

/-- A fraction takes nothing back. -/
theorem afterFraction_length_le (t : List Char) : (afterFraction t).length ≤ t.length := by
  unfold afterFraction
  split
  · next u =>
    cases hd : digits? u with
    | none => simp
    | some r =>
      have := digits?_length hd
      have := afterExponent_length_le r
      simp only [Option.map_some, Option.getD_some, List.length_cons]
      omega
  · simp

/-- A numeral takes at least one character. -/
theorem numeral?_length {t rest : List Char} (h : numeral? t = some rest) :
    rest.length < t.length := by
  unfold numeral? at h
  split at h
  · next u =>
    split at h
    · obtain rfl : _ = rest := by simpa using h
      have := (List.dropWhile_suffix isHexPart (l := u)).length_le
      simp only [List.length_cons]
      omega
    · obtain rfl : _ = rest := by simpa using h
      simp
  · cases hd : digits? t with
    | none => simp [hd] at h
    | some r =>
      have := digits?_length hd
      have := afterFraction_length_le r
      obtain rfl : afterFraction r = rest := by simpa [hd] using h
      omega

end HclQuery.Grammar
