import HclQuery.Grammar.Token

/-!
# Grammar: expressions

An expression is read by a machine with a stack of what is open.  It never goes back: each token is
the longest one that is acceptable, and it always belongs to what is open if it can.  The expression
ends in front of the first token that cannot go on with it.

Main definitions:

- {lit}`State.advance`: the effect of a token; none if it is not acceptable.
- {lit}`State.next`: the effect of the next token of a text.
- {lit}`scan`: the text after an expression.

Main results:

- Theorem {lit}`State.next_length`: a token takes at least one character.
-/

namespace HclQuery.Grammar

/-- The stages of a `for` clause in brackets or braces. -/
inductive Stage where
  /-- The collection that is gone through. -/
  | source
  /-- The key of an object. -/
  | key
  /-- The value. -/
  | value
  /-- The condition. -/
  | guard
  deriving DecidableEq, Repr

/-- Something open, with the place in it. -/
inductive Frame where
  | paren
  | index
  | tuple
  | arguments
  /-- Between the question mark and the colon of a conditional. -/
  | choice
  /-- At the key of a member of an object. -/
  | key
  /-- At the value of a member of an object. -/
  | value
  | forTuple (stage : Stage)
  | forObject (stage : Stage)
  | quoted
  | heredoc (marker : List Char)
  | interpolation
  | forClause
  | ifClause
  | elseClause
  | endifClause
  | endforClause
  /-- The text that a `for` directive repeats. -/
  | loop
  /-- The text that an `if` directive chooses. -/
  | branch
  /-- The text that an `else` directive chooses. -/
  | otherwise
  /-- A file that is one object. -/
  | file
  deriving DecidableEq, Repr

/-- What may come next. -/
inductive Mode where
  /-- An expression. -/
  | operand
  /-- The first thing inside a bracket, or its end. -/
  | opened
  /-- What comes after a comma, or the end of the bracket. -/
  | again
  /-- Something after a term; it may be the arguments of a call if the term is a name. -/
  | term (callable : Bool)
  /-- An index or a name after a dot. -/
  | dot
  /-- The end of the bracket. -/
  | closing
  /-- The first name of a `for`. -/
  | binder
  /-- What follows the first name of a `for`. -/
  | bound
  /-- The second name of a `for`. -/
  | secondBinder
  /-- The `in` of a `for`. -/
  | secondBound
  /-- The text of a template. -/
  | parts
  /-- What follows the opening of a template sequence. -/
  | sequence
  /-- What follows the strip mark after the opening of a template sequence. -/
  | stripped
  /-- A strip mark or the end of a template sequence. -/
  | clauseEnd
  /-- The end of a template sequence. -/
  | sequenceEnd
  /-- The keyword of a directive, perhaps after a strip mark. -/
  | directive
  /-- The keyword of a directive after a strip mark. -/
  | directiveWord
  /-- Nothing. -/
  | done
  deriving DecidableEq, Repr

/-- Where an expression stands: what may come next, and what is open, innermost first. -/
structure State where
  mode : Mode
  stack : List Frame
  deriving DecidableEq, Repr

namespace State

/-- After a term that is no name. -/
def afterTerm (st : List Frame) : State := ⟨.term false, st⟩

/-- After the bracket of the frame on top has been closed. -/
def close : List Frame → State
  | [] => ⟨.done, []⟩
  | _ :: st => if st = [.file] then ⟨.done, st⟩ else afterTerm st

/-- A token that begins an expression. -/
def beginOperand (st : List Frame) : Token → Option State
  | .word => some ⟨.term true, st⟩
  | .numeral => some (afterTerm st)
  | .keyword .true_ | .keyword .false_ | .keyword .null => some (afterTerm st)
  | .heredoc m => some ⟨.parts, .heredoc m :: st⟩
  | .symbol .quote => some ⟨.parts, .quoted :: st⟩
  | .symbol .openBracket => some ⟨.opened, .tuple :: st⟩
  | .symbol .openBrace => some ⟨.opened, .key :: st⟩
  | .symbol .openParen => some ⟨.operand, .paren :: st⟩
  | .symbol .minus | .symbol .bang => some ⟨.operand, st⟩
  | _ => none

/-- A token after a comma: the end of the bracket, or an expression. -/
def continueList (st : List Frame) (k : Token) : Option State :=
  match st.head?, k with
  | some .tuple, .symbol .closeBracket => some (close st)
  | some .key, .symbol .closeBrace => some (close st)
  | some .arguments, .symbol .closeParen => some (close st)
  | _, k => beginOperand st k

/-- A token just inside a bracket. -/
def openList (st : List Frame) (k : Token) : Option State :=
  match st, k with
  | .tuple :: st, .keyword .for_ => some ⟨.binder, .forTuple .source :: st⟩
  | .key :: st, .keyword .for_ => some ⟨.binder, .forObject .source :: st⟩
  | st, k => continueList st k

/-- A token that goes on with the term before it. -/
def extend (callable : Bool) (st : List Frame) : Token → Option State
  | .symbol .openBracket => some ⟨.operand, .index :: st⟩
  | .symbol .fullSplat | .symbol .attrSplat => some (afterTerm st)
  | .symbol .dot => some ⟨.dot, st⟩
  | .symbol .openParen => if callable then some ⟨.opened, .arguments :: st⟩ else none
  | .symbol .question => some ⟨.operand, .choice :: st⟩
  | .symbol .minus | .symbol .binary => some ⟨.operand, st⟩
  | _ => none

/-- A token after a whole expression, as the innermost open thing takes it. -/
def follow (st : List Frame) (k : Token) : Option State :=
  match st, k with
  | .paren :: _, .symbol .closeParen => some (close st)
  | .index :: _, .symbol .closeBracket => some (close st)
  | .tuple :: _, .symbol .closeBracket => some (close st)
  | .tuple :: _, .symbol .comma => some ⟨.again, st⟩
  | .arguments :: _, .symbol .closeParen => some (close st)
  | .arguments :: _, .symbol .comma => some ⟨.again, st⟩
  | .arguments :: _, .symbol .ellipsis => some ⟨.closing, st⟩
  | .choice :: st, .symbol .colon => some ⟨.operand, st⟩
  | .key :: st, .symbol .assign | .key :: st, .symbol .colon => some ⟨.operand, .value :: st⟩
  | .value :: _, .symbol .closeBrace => some (close st)
  | .value :: st, .symbol .comma => some ⟨.again, .key :: st⟩
  | .value :: st, k => beginOperand (.key :: st) k
  | .forTuple .source :: st, .symbol .colon => some ⟨.operand, .forTuple .value :: st⟩
  | .forTuple .value :: st, .keyword .if_ => some ⟨.operand, .forTuple .guard :: st⟩
  | .forTuple .value :: _, .symbol .closeBracket => some (close st)
  | .forTuple .guard :: _, .symbol .closeBracket => some (close st)
  | .forObject .source :: st, .symbol .colon => some ⟨.operand, .forObject .key :: st⟩
  | .forObject .key :: st, .symbol .arrow => some ⟨.operand, .forObject .value :: st⟩
  | .forObject .value :: _, .symbol .ellipsis => some ⟨.closing, st⟩
  | .forObject .value :: st, .keyword .if_ => some ⟨.operand, .forObject .guard :: st⟩
  | .forObject .value :: _, .symbol .closeBrace => some (close st)
  | .forObject .guard :: _, .symbol .closeBrace => some (close st)
  | .interpolation :: _, .symbol .strip => some ⟨.sequenceEnd, st⟩
  | .interpolation :: st, .symbol .closeBrace => some ⟨.parts, st⟩
  | .forClause :: _, .symbol .strip => some ⟨.sequenceEnd, st⟩
  | .forClause :: st, .symbol .closeBrace => some ⟨.parts, .loop :: st⟩
  | .ifClause :: _, .symbol .strip => some ⟨.sequenceEnd, st⟩
  | .ifClause :: st, .symbol .closeBrace => some ⟨.parts, .branch :: st⟩
  | _, _ => none

/-- A token after an ellipsis. -/
def finishBracket (st : List Frame) (k : Token) : Option State :=
  match st, k with
  | .arguments :: _, .symbol .closeParen => some (close st)
  | .forObject .value :: st, .keyword .if_ => some ⟨.operand, .forObject .guard :: st⟩
  | .forObject .value :: _, .symbol .closeBrace => some (close st)
  | _, _ => none

/-- The end of a template sequence. -/
def endSequence : List Frame → Option State
  | .interpolation :: st => some ⟨.parts, st⟩
  | .forClause :: st => some ⟨.parts, .loop :: st⟩
  | .ifClause :: st => some ⟨.parts, .branch :: st⟩
  | .elseClause :: .branch :: st => some ⟨.parts, .otherwise :: st⟩
  | .endifClause :: .branch :: st | .endifClause :: .otherwise :: st => some ⟨.parts, st⟩
  | .endforClause :: .loop :: st => some ⟨.parts, st⟩
  | _ => none

/-- The keyword of a directive. -/
def beginDirective (st : List Frame) (k : Token) : Option State :=
  match st, k with
  | st, .keyword .for_ => some ⟨.binder, .forClause :: st⟩
  | st, .keyword .if_ => some ⟨.operand, .ifClause :: st⟩
  | .branch :: _, .keyword .else_ => some ⟨.clauseEnd, .elseClause :: st⟩
  | .branch :: _, .keyword .endif | .otherwise :: _, .keyword .endif =>
    some ⟨.clauseEnd, .endifClause :: st⟩
  | .loop :: _, .keyword .endfor => some ⟨.clauseEnd, .endforClause :: st⟩
  | _, _ => none

/-- A part of a template. -/
def inTemplate (st : List Frame) : Part → Option State
  | .chunk => some ⟨.parts, st⟩
  | .interpolation => some ⟨.sequence, .interpolation :: st⟩
  | .directive => some ⟨.directive, st⟩
  | .finish =>
    match st with
    | .quoted :: st | .heredoc _ :: st => some (afterTerm st)
    | _ => none

/-- The effect of a token; none if it is not acceptable. -/
def advance (s : State) (k : Token) : Option State :=
  match s.mode, k with
  | .operand, k => beginOperand s.stack k
  | .opened, k => openList s.stack k
  | .again, k => continueList s.stack k
  | .term callable, k => (extend callable s.stack k).or (follow s.stack k)
  | .dot, .digits | .dot, .word => some (afterTerm s.stack)
  | .closing, k => finishBracket s.stack k
  | .binder, .word => some { s with mode := .bound }
  | .bound, .symbol .comma => some { s with mode := .secondBinder }
  | .bound, .keyword .in_ => some { s with mode := .operand }
  | .secondBinder, .word => some { s with mode := .secondBound }
  | .secondBound, .keyword .in_ => some { s with mode := .operand }
  | .parts, .part p => inTemplate s.stack p
  | .sequence, .symbol .strip => some { s with mode := .stripped }
  | .stripped, .symbol .strip => some { s with mode := .sequenceEnd }
  | .sequence, .symbol .closeBrace | .stripped, .symbol .closeBrace => endSequence s.stack
  | .sequence, k | .stripped, k => beginOperand s.stack k
  | .clauseEnd, .symbol .strip => some { s with mode := .sequenceEnd }
  | .clauseEnd, .symbol .closeBrace | .sequenceEnd, .symbol .closeBrace => endSequence s.stack
  | .directive, .symbol .strip => some { s with mode := .directiveWord }
  | .directive, k | .directiveWord, k => beginDirective s.stack k
  | _, _ => none

/-- The kind of the innermost template. -/
def context : List Frame → Context
  | [] => .quoted
  | .quoted :: _ => .quoted
  | .heredoc m :: _ => .heredoc m
  | _ :: st => context st

/-- The innermost open thing is a template itself, which may end here. -/
def mayEnd : List Frame → Bool
  | .quoted :: _ | .heredoc _ :: _ => true
  | _ => false

/-- The next token of a text and the text after it. -/
def lex (s : State) (t : List Char) : Option (Token × List Char) :=
  if s.mode = .parts then
    (part? (context s.stack) true (mayEnd s.stack) t).map fun x => (.part x.1, x.2)
  else lexCode (fun k => (s.advance k).isSome) (skipTrivia t)

/-- The effect of the next token of a text, and the text after it. -/
def next (s : State) (t : List Char) : Option (State × List Char) :=
  (s.lex t).bind fun x => (s.advance x.1).map fun s => (s, x.2)

/-- The expression may end here. -/
def complete (s : State) : Bool :=
  match s with
  | ⟨.term _, []⟩ => true
  | ⟨.done, _⟩ => true
  | _ => false

/-- A token takes at least one character. -/
theorem lex_length {s : State} {t r : List Char} {k : Token} (h : s.lex t = some (k, r)) :
    r.length < t.length := by
  unfold lex at h
  split at h
  · obtain ⟨x, hx, he⟩ := Option.map_eq_some_iff.1 h
    obtain ⟨-, rfl⟩ : _ ∧ _ := by simpa using he
    exact part?_length (p := x.1) hx
  · exact Nat.lt_of_lt_of_le (lexCode_length h) (skipTrivia_length_le t)

/-- A token takes at least one character. -/
theorem next_length {s s' : State} {t r : List Char} (h : s.next t = some (s', r)) :
    r.length < t.length := by
  obtain ⟨x, hx, he⟩ := Option.bind_eq_some_iff.1 h
  obtain ⟨y, -, he⟩ := Option.map_eq_some_iff.1 he
  obtain ⟨-, rfl⟩ : _ ∧ _ := by simpa using he
  exact lex_length (k := x.1) hx

/-- The text after the expression that a state stands in, or the state and the text in which it
cannot go on. -/
def run (s : State) (t : List Char) : Except (State × List Char) (List Char) :=
  match _h : s.next t with
  | some (s, t) => run s t
  | none => if s.complete then .ok t else .error (s, t)
termination_by t.length
decreasing_by exact next_length _h

/-- A run takes nothing back. -/
theorem run_length_le {s : State} {t r : List Char} (h : s.run t = .ok r) :
    r.length ≤ t.length := by
  fun_induction run s t with
  | case1 s t s' t' hn ih => exact Nat.le_trans (ih h) (Nat.le_of_lt (next_length hn))
  | case2 s t =>
    obtain rfl : t = r := by simpa using h
    exact Nat.le_refl _
  | case3 => simp at h

end State

/-- The text after the expression at the front of a text. -/
def scan (t : List Char) : Except (State × List Char) (List Char) :=
  State.run ⟨.operand, []⟩ t

/-- The text after the lone object at the front of a file, of which the brace has been read. -/
def scanObject (t : List Char) : Except (State × List Char) (List Char) :=
  State.run ⟨.again, [.key, .file]⟩ t

/-- An expression takes at least one character. -/
theorem scan_length {t r : List Char} (h : scan t = .ok r) : r.length < t.length := by
  unfold scan at h
  rw [State.run] at h
  split at h
  · next hn => exact Nat.lt_of_le_of_lt (State.run_length_le h) (State.next_length hn)
  · simp [State.complete] at h

end HclQuery.Grammar
