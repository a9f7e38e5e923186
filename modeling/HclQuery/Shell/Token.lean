import HclQuery.Shell.Syntax

/-!
# Shell: words and marks

The text of a script is divided into words and marks.  Quotes, parameters, sums and scripts within
words are taken apart on the way.

Main definitions:

- {lit}`Token`: a word or a mark with its line.
- {lit}`tokens`: the words and marks of a text.

Main results:

- Theorem {lit}`expansion?_length`: what follows a dollar sign is taken off the front of a text.
-/

namespace HclQuery.Shell

/-- What an arrow points to. -/
inductive Arrow where
  | file
  /-- The end of a file. -/
  | fileEnd
  | descriptor
  deriving DecidableEq, Repr

/-- A word or a mark. -/
inductive Mark where
  | word (w : Word)
  /-- An arrow, with the descriptor in front of it. -/
  | arrow (descriptor : Nat) (a : Arrow)
  | pipe
  | semicolon
  | doubleSemicolon
  | newline
  | both
  | either
  | background
  | openParen
  | closeParen
  /-- The end of a text that ends in the midst of a quotation. -/
  | unterminated
  /-- The end of a text. -/
  | ending
  deriving DecidableEq, Repr

/-- A word or a mark with its line. -/
structure Token where
  line : Nat
  mark : Mark
  deriving DecidableEq, Repr

/-- How a text is being read. -/
inductive Mode where
  | plain
  | single
  | double
  | comment
  deriving DecidableEq, Repr

/-! ## Expansions -/

/-- The characters of names. -/
def isNameChar (c : Char) : Bool :=
  c.isAlphanum || c == '_'

/-- The parameters whose names are one character. -/
def isShortName (c : Char) : Bool :=
  c.isDigit || "#@*?$".toList.contains c

/-- How many characters stand before the parenthesis that closes a text, given how many have been
opened and the quote that is open. -/
def closing (depth : Nat) (quote : Option Char) : List Char → Option Nat
  | [] => none
  | [c] => if c = ')' ∧ depth = 0 ∧ quote.isNone then some 0 else none
  | c :: d :: r =>
    if c = '\\' ∧ quote ≠ some '\'' then (closing depth quote r).map (· + 2)
    else
      match quote with
      | some q => (closing depth (if c = q then none else some q) (d :: r)).map (· + 1)
      | none =>
        if c = '\'' ∨ c = '"' then (closing depth (some c) (d :: r)).map (· + 1)
        else if c = '(' then (closing (depth + 1) none (d :: r)).map (· + 1)
        else if c = ')' then
          match depth with
          | 0 => some 0
          | depth + 1 => (closing depth none (d :: r)).map (· + 1)
        else (closing depth none (d :: r)).map (· + 1)

/-- The script or the sum between parentheses. -/
def parenthesized (quoted : Bool) (text : List Char) : Piece :=
  match text with
  | '(' :: inner =>
    if inner.getLast? = some ')' then .number quoted inner.dropLast else .output quoted text
  | text => .output quoted text

/-- What follows a dollar sign, and the rest. -/
def expansion? (quoted : Bool) (t : List Char) : Option (Piece × List Char) :=
  match t with
  | [] => none
  | c :: r =>
    if c = '(' then
      (closing 0 none r).map fun n => (parenthesized quoted (r.take n), r.drop (n + 1))
    else if isShortName c then some (.parameter quoted [c], r)
    else if c = '{' then
      let name := r.takeWhile (· != '}')
      if name.length < r.length then some (.parameter quoted name, r.drop (name.length + 1))
      else none
    else if isNameChar c then
      let name := r.takeWhile isNameChar
      some (.parameter quoted (c :: name), r.drop name.length)
    else none

/-- What follows a dollar sign is taken off the front of a text. -/
theorem expansion?_length {quoted : Bool} {t r : List Char} {p : Piece}
    (h : expansion? quoted t = some (p, r)) : r.length ≤ t.length := by
  cases t with
  | nil => simp [expansion?] at h
  | cons c u =>
    rw [expansion?] at h
    split at h
    · obtain ⟨n, -, hn⟩ := Option.map_eq_some_iff.1 h
      obtain ⟨-, rfl⟩ : _ ∧ _ := by simpa using hn
      simp only [List.length_drop, List.length_cons]
      omega
    · split at h
      · obtain ⟨-, rfl⟩ : _ ∧ _ := by simpa using h
        simp
      · split at h
        · simp only at h
          split at h
          · obtain ⟨-, rfl⟩ : _ ∧ _ := by simpa using h
            simp only [List.length_drop, List.length_cons]
            omega
          · simp at h
        · split at h
          · obtain ⟨-, rfl⟩ : _ ∧ _ := by simpa using h
            simp only [List.length_drop, List.length_cons]
            omega
          · simp at h

/-- The script between backquotes, of which the first has been read, and the rest. -/
def backquoted (quoted : Bool) (t : List Char) : Piece × List Char :=
  let script := t.takeWhile (· != '`')
  (.output quoted script, t.drop (script.length + 1))

/-- Reading a backquoted script takes nothing back. -/
theorem backquoted_length (quoted : Bool) (t : List Char) :
    (backquoted quoted t).2.length ≤ t.length := by
  simp only [backquoted, List.length_drop]
  omega

/-! ## Words and marks -/

/-- The token of the word that has been read so far, the last piece first, if there is one. -/
def flush (line : Nat) (word : Option Word) (tokens : List Token) : List Token :=
  match word with
  | some w => ⟨line, .word w.reverse⟩ :: tokens
  | none => tokens

/-- The number that a word denotes, if it is made of digits. -/
def wordNumber? (w : Word) : Option Nat :=
  w.foldl (fun n p =>
    match n, p with
    | some n, .char false c => if c.isDigit then some (n * 10 + (c.toNat - 48)) else none
    | _, _ => none) (some 0)

/-- The tokens of an arrow after the word that has been read so far, which is its descriptor if it
is a number. -/
def arrow (line : Nat) (word : Option Word) (default : Nat) (a : Arrow) (tokens : List Token) :
    List Token :=
  match word with
  | none => ⟨line, .arrow default a⟩ :: tokens
  | some w =>
    match wordNumber? w.reverse with
    | some n => ⟨line, .arrow n a⟩ :: tokens
    | none => ⟨line, .word w.reverse⟩ :: ⟨line, .arrow default a⟩ :: tokens

/-- The word with one more piece. -/
def push (p : Piece) (word : Option Word) : Option Word :=
  some (p :: word.getD [])

/-- The words and marks of a text, given the word that has been read so far. -/
def tokensFrom (mode : Mode) (line : Nat) (word : Option Word) (t : List Char) : List Token :=
  match t with
  | [] =>
    match mode with
    | .single => [⟨line, .unterminated⟩]
    | .double => [⟨line, .unterminated⟩]
    | _ => flush line word [⟨line, .ending⟩]
  | c :: r =>
    let next := if c = '\n' then line + 1 else line
    match mode with
    | .comment =>
      if c = '\n' then ⟨line, .newline⟩ :: tokensFrom .plain next none r
      else tokensFrom .comment next none r
    | .single =>
      if c = '\'' then tokensFrom .plain next word r
      else tokensFrom .single next (push (.char true c) word) r
    | .double =>
      if c = '"' then tokensFrom .plain next word r
      else if c = '\\' then
        match r with
        | [] => [⟨line, .unterminated⟩]
        | d :: u =>
          if d = '\n' then tokensFrom .double (next + 1) word u
          else if d = '$' ∨ d = '"' ∨ d = '\\' ∨ d = '`' then
            tokensFrom .double next (push (.char true d) word) u
          else tokensFrom .double next (push (.char true d) (push (.char true c) word)) u
      else if c = '$' then
        match _h : expansion? true r with
        | some (p, u) => tokensFrom .double next (push p word) u
        | none => tokensFrom .double next (push (.char true c) word) r
      else if c = '`' then
        tokensFrom .double next (push (backquoted true r).1 word) (backquoted true r).2
      else tokensFrom .double next (push (.char true c) word) r
    | .plain =>
      if c = ' ' ∨ c = '\t' then flush line word (tokensFrom .plain next none r)
      else if c = '\n' then
        flush line word (⟨line, .newline⟩ :: tokensFrom .plain next none r)
      else if c = ';' then
        match r with
        | ';' :: u => flush line word (⟨line, .doubleSemicolon⟩ :: tokensFrom .plain next none u)
        | r => flush line word (⟨line, .semicolon⟩ :: tokensFrom .plain next none r)
      else if c = '(' then flush line word (⟨line, .openParen⟩ :: tokensFrom .plain next none r)
      else if c = ')' then flush line word (⟨line, .closeParen⟩ :: tokensFrom .plain next none r)
      else if c = '\'' then tokensFrom .single next (some (word.getD [])) r
      else if c = '"' then tokensFrom .double next (some (word.getD [])) r
      else if c = '#' ∧ word.isNone then tokensFrom .comment next none r
      else if c = '\\' then
        match r with
        | [] => flush line (push (.char true c) word) [⟨line, .ending⟩]
        | d :: u =>
          if d = '\n' then tokensFrom .plain (next + 1) word u
          else tokensFrom .plain next (push (.char true d) word) u
      else if c = '$' then
        match _h2 : expansion? false r with
        | some (p, u) => tokensFrom .plain next (push p word) u
        | none => tokensFrom .plain next (push (.char false c) word) r
      else if c = '`' then
        tokensFrom .plain next (push (backquoted false r).1 word) (backquoted false r).2
      else if c = '|' then
        match r with
        | '|' :: u => flush line word (⟨line, .either⟩ :: tokensFrom .plain next none u)
        | r => flush line word (⟨line, .pipe⟩ :: tokensFrom .plain next none r)
      else if c = '&' then
        match r with
        | '&' :: u => flush line word (⟨line, .both⟩ :: tokensFrom .plain next none u)
        | r => flush line word (⟨line, .background⟩ :: tokensFrom .plain next none r)
      else if c = '>' then
        match r with
        | '&' :: u => arrow line word 1 .descriptor (tokensFrom .plain next none u)
        | '>' :: u => arrow line word 1 .fileEnd (tokensFrom .plain next none u)
        | r => arrow line word 1 .file (tokensFrom .plain next none r)
      else if c = '<' then
        match r with
        | '&' :: u => arrow line word 0 .descriptor (tokensFrom .plain next none u)
        | r => arrow line word 0 .file (tokensFrom .plain next none r)
      else tokensFrom .plain next (push (.char false c) word) r
termination_by t.length
decreasing_by
  all_goals
    first
      | exact Nat.lt_succ_of_le (expansion?_length ‹_›)
      | exact Nat.lt_succ_of_le (backquoted_length ..)
      | (simp only [List.length_cons]; omega)

/-- The words and marks of a text. -/
def tokens (t : List Char) : List Token :=
  tokensFrom .plain 1 none t

end HclQuery.Shell
