import HclQuery.Grammar.Expression
import HclQuery.Proofs.Grammar.Consumption

/-!
# What a token does

A token that opens a heredoc is the only one that adds a marker to what is open, and the text of the
heredoc follows it.  So the markers of all open heredocs consist of marker characters, and what is
left after an expression is a suffix of the text.

Main definitions:

- {lit}`State.Follows`: what is known of a state after a token.
- {lit}`State.Marked`: the markers of the open heredocs consist of marker characters.

Main results:

- Theorem {lit}`State.advance_follows`: what a token does.
- Theorem {lit}`State.not_complete_of_binary`: an operator is followed by an operand.
- Theorem {lit}`State.next_marked`: markers are kept.
- Theorem {lit}`State.run_suffix`: what is left after an expression is a suffix of the text.
- Theorem {lit}`State.next_ends`: the last character of an expression is visible.
-/

namespace HclQuery.Grammar

open Text

namespace State

/-- A state that a token leads to: its heredocs were open before or are opened by the token, the
opening of a heredoc is followed by its text, and a file that is one object is never closed. -/
structure Follows (st : List Frame) (k : Token) (s : State) : Prop where
  markers : ∀ m, .heredoc m ∈ s.stack → .heredoc m ∈ st ∨ k = .heredoc m
  opening : ∀ m, k = .heredoc m → s.mode = .parts
  file : .file ∈ st → .file ∈ s.stack

/-- Closing a bracket takes one frame off the stack. -/
@[simp]
theorem stack_close (st : List Frame) : (close st).stack = st.tail := by
  cases st with
  | nil => rfl
  | cons f st =>
    rw [close]
    split <;> rfl

/-- The end of a bracket. -/
theorem close_follows {f : Frame} (hf : f ≠ .file) (st : List Frame) {k : Token}
    (hk : ∀ m, k ≠ .heredoc m) : Follows (f :: st) k (close (f :: st)) := by
  constructor
  · intro m hm
    rw [stack_close] at hm
    exact .inl (List.mem_cons_of_mem _ hm)
  · exact fun m hm => absurd hm (hk m)
  · intro hfile
    rw [stack_close]
    exact (List.mem_cons.1 hfile).resolve_left hf.symm

/-- An operand is followed by a state that keeps to the stack. -/
theorem beginOperand_follows {st : List Frame} {k : Token} {s : State}
    (h : beginOperand st k = some s) : Follows st k s := by
  unfold beginOperand at h
  split at h
  all_goals cases h
  all_goals constructor <;> simp_all [afterTerm]

/-- An element of a list is followed by a state that keeps to the stack. -/
theorem continueList_follows {st : List Frame} {k : Token} {s : State}
    (h : continueList st k = some s) : Follows st k s := by
  unfold continueList at h
  split at h
  all_goals first
    | exact beginOperand_follows h
    | next hhead =>
      rcases List.head?_eq_some_iff.1 hhead with ⟨st, rfl⟩
      cases h
      exact close_follows (by simp) st (by simp)

/-- The first element of a list is followed by a state that keeps to the stack. -/
theorem openList_follows {st : List Frame} {k : Token} {s : State} (h : openList st k = some s) :
    Follows st k s := by
  unfold openList at h
  split at h
  all_goals first
    | exact continueList_follows h
    | cases h; constructor <;> simp

/-- What extends a term is followed by a state that keeps to the stack. -/
theorem extend_follows {callable : Bool} {st : List Frame} {k : Token} {s : State}
    (h : extend callable st k = some s) : Follows st k s := by
  unfold extend at h
  split at h
  all_goals first
    | cases h; constructor <;> simp [afterTerm]
    | split at h <;> cases h; constructor <;> simp
    | cases h

/-- What follows a term leads to a state that keeps to the stack. -/
theorem follow_follows {st : List Frame} {k : Token} {s : State} (h : follow st k = some s) :
    Follows st k s := by
  unfold follow at h
  split at h
  all_goals first
    | cases h; exact close_follows (by simp) _ (by simp)
    | cases h; constructor <;> simp
    | skip
  · have hoperand := beginOperand_follows h
    exact ⟨fun m hm => (hoperand.markers m hm).imp (by simp) id, hoperand.opening,
      fun hfile => hoperand.file (by simpa using hfile)⟩
  · cases h

/-- The end of a bracket is followed by a state that keeps to the stack. -/
theorem finishBracket_follows {st : List Frame} {k : Token} {s : State}
    (h : finishBracket st k = some s) : Follows st k s := by
  unfold finishBracket at h
  split at h
  all_goals first
    | cases h; exact close_follows (by simp) _ (by simp)
    | cases h; constructor <;> simp
    | cases h

/-- The end of a template sequence is followed by a state that keeps to the stack. -/
theorem endSequence_follows {st : List Frame} {k : Token} {s : State}
    (h : endSequence st = some s) (hk : ∀ m, k ≠ .heredoc m) : Follows st k s := by
  unfold endSequence at h
  split at h
  all_goals first
    | cases h; constructor <;> simp [hk]
    | cases h

/-- The beginning of a directive is followed by a state that keeps to the stack. -/
theorem beginDirective_follows {st : List Frame} {k : Token} {s : State}
    (h : beginDirective st k = some s) : Follows st k s := by
  unfold beginDirective at h
  split at h
  all_goals first
    | cases h; constructor <;> simp
    | cases h

/-- A part of a template is followed by a state that keeps to the stack. -/
theorem inTemplate_follows {st : List Frame} {p : Part} {s : State}
    (h : inTemplate st p = some s) : Follows st (.part p) s := by
  unfold inTemplate at h
  split at h
  · cases h
    constructor <;> simp
  · cases h
    constructor <;> simp
  · cases h
    constructor <;> simp
  · split at h
    · cases h
      constructor <;> simp [afterTerm]
    · cases h
      constructor <;> simp +contextual [afterTerm]
    · cases h

/-- What a token does. -/
theorem advance_follows {s s' : State} {k : Token} (h : s.advance k = some s') :
    Follows s.stack k s' := by
  unfold advance at h
  split at h
  case h_4 =>
    rcases Option.or_eq_some_iff.1 h with h | ⟨-, h⟩
    · exact extend_follows h
    · exact follow_follows h
  all_goals first
    | exact beginOperand_follows h
    | exact openList_follows h
    | exact continueList_follows h
    | exact finishBracket_follows h
    | exact inTemplate_follows h
    | exact endSequence_follows h nofun
    | exact beginDirective_follows h
    | cases h; constructor <;> simp [afterTerm]
    | cases h

/-! ## Operators -/

/-- No list goes on with a binary operator. -/
theorem continueList_binary (st : List Frame) : continueList st (.symbol .binary) = none := by
  unfold continueList
  split <;> first | rfl | contradiction

/-- No list begins with a binary operator. -/
theorem openList_binary (st : List Frame) : openList st (.symbol .binary) = none := by
  unfold openList
  split <;> first | contradiction | exact continueList_binary _

/-- No bracket ends with a binary operator. -/
theorem finishBracket_binary (st : List Frame) : finishBracket st (.symbol .binary) = none := by
  unfold finishBracket
  split <;> first | rfl | contradiction

/-- No directive begins with a binary operator. -/
theorem beginDirective_binary (st : List Frame) :
    beginDirective st (.symbol .binary) = none := by
  unfold beginDirective
  split <;> first | rfl | contradiction

/-- An operator is followed by an operand. -/
theorem not_complete_of_binary {s s' : State} (h : s.advance (.symbol .binary) = some s') :
    s'.complete = false := by
  rcases s with ⟨mode, st⟩
  cases mode with
  | term callable =>
    cases h
    rfl
  | opened => cases (openList_binary st).symm.trans h
  | again => cases (continueList_binary st).symm.trans h
  | closing => cases (finishBracket_binary st).symm.trans h
  | directive => cases (beginDirective_binary st).symm.trans h
  | directiveWord => cases (beginDirective_binary st).symm.trans h
  | _ => cases h

/-! ## Markers -/

/-- The markers of the open heredocs consist of marker characters. -/
def Marked (s : State) : Prop :=
  ∀ m, .heredoc m ∈ s.stack → ∀ c ∈ m, isMarkerPart c = true

/-- A token and what is done with it. -/
theorem next_eq_some {s s' : State} {t r : List Char} :
    s.next t = some (s', r) ↔ ∃ k, s.lex t = some (k, r) ∧ s.advance k = some s' := by
  constructor
  · intro h
    rcases Option.bind_eq_some_iff.1 h with ⟨x, hx, he⟩
    rcases Option.map_eq_some_iff.1 he with ⟨y, hy, he⟩
    obtain ⟨rfl, rfl⟩ : _ ∧ _ := by simpa using he
    exact ⟨x.1, hx, hy⟩
  · rintro ⟨k, hk, hs⟩
    rw [next, hk, Option.bind_some, hs]
    rfl

/-- What follows a token is the end of the text. -/
theorem lex_suffix {s : State} {t r : List Char} {k : Token} (h : s.lex t = some (k, r)) :
    r <:+ t := by
  unfold lex at h
  split at h
  · rcases Option.map_eq_some_iff.1 h with ⟨x, hx, he⟩
    obtain ⟨-, rfl⟩ : _ ∧ _ := by simpa using he
    exact (part?_suffix (p := x.1) hx).trans (List.dropWhile_suffix isSpace)
  · exact (lexCode_suffix h).trans (skipTrivia_suffix t)

/-- What is left after a token is a suffix of the text. -/
theorem next_suffix {s s' : State} {t r : List Char} (h : s.next t = some (s', r)) : r <:+ t := by
  rcases next_eq_some.1 h with ⟨k, hk, -⟩
  exact lex_suffix hk

/-- What is left after an expression is a suffix of the text. -/
theorem run_suffix {s : State} {t r : List Char} (h : s.run t = .ok r) : r <:+ t := by
  fun_induction run s t with
  | case1 s t s' t' hn ih => exact (ih h).trans (next_suffix hn)
  | case2 s t =>
    obtain rfl : t = r := by simpa using h
    exact List.suffix_refl _
  | case3 => simp at h

/-- A token leaves the markers of the open heredocs as they are, or adds one. -/
theorem next_marked {s s' : State} {t r : List Char} (hs : s.Marked)
    (h : s.next t = some (s', r)) : s'.Marked := by
  rcases next_eq_some.1 h with ⟨k, hk, hadvance⟩
  have hfollows := advance_follows hadvance
  intro m hm
  rcases hfollows.markers m hm with hold | rfl
  · exact hs m hold
  · unfold lex at hk
    split at hk
    · rcases Option.map_eq_some_iff.1 hk with ⟨x, -, he⟩
      cases he
    · rcases lexCode_takes hk with ⟨-, hne⟩ | ⟨m', u, he, -, hm', -⟩
      · exact absurd rfl (hne m)
      · cases he
        exact hm'

/-- The marker of the innermost heredoc is on the stack. -/
theorem context_mem {st : List Frame} {m : List Char} (h : context st = .heredoc m) :
    .heredoc m ∈ st := by
  induction st with
  | nil => cases h
  | cons f st ih =>
    unfold context at h
    split at h
    · cases h
    · cases h
    · next heq =>
      cases heq
      cases h
      exact List.mem_cons_self ..
    · next heq =>
      cases heq
      exact List.mem_cons_of_mem _ (ih h)

/-- In a template, a part leads on as the template says. -/
theorem advance_of_parts {s : State} (h : s.mode = .parts) (p : Part) :
    s.advance (.part p) = inTemplate s.stack p := by
  rcases s with ⟨mode, st⟩
  obtain rfl : mode = .parts := h
  rfl

/-- The last character of an expression is visible. -/
theorem next_ends {s s' : State} {t r : List Char} (hs : s.Marked)
    (h : s.next t = some (s', r)) (hcomplete : s'.complete = true) :
    ∃ a c, t = a ++ c :: r ∧ isBlank c = false := by
  have hlast : ∀ {u m : List Char}, m ≠ [] → (∀ c ∈ m, isBlank c = false) → u = m ++ r →
      u <:+ t → ∃ a c, t = a ++ c :: r ∧ isBlank c = false := by
    rintro u m hne hm rfl ⟨b, hb⟩
    refine ⟨b ++ m.dropLast, m.getLast hne, ?_, hm _ (List.getLast_mem hne)⟩
    rw [← hb, List.append_assoc, List.append_cons, List.dropLast_concat_getLast]
  rcases next_eq_some.1 h with ⟨k, hk, hadvance⟩
  unfold lex at hk
  split at hk
  · next hmode =>
    rcases Option.map_eq_some_iff.1 hk with ⟨⟨p, u⟩, hx, he⟩
    obtain ⟨rfl, rfl⟩ : _ ∧ _ := by simpa using he
    rw [advance_of_parts hmode] at hadvance
    have hfinish : p = .finish := by
      cases p with
      | finish => rfl
      | _ => cases hadvance; cases hcomplete
    subst hfinish
    rcases part?_finish hx with ⟨m, ht, hne, hm⟩
    refine hlast hne ?_ ht (List.dropWhile_suffix isSpace)
    rcases hm with rfl | hm
    · intro c hc
      rw [List.mem_singleton.1 hc]
      rfl
    · exact fun c hc => visible_of_isMarkerPart (hs m (context_mem hm) c hc)
  · rcases lexCode_takes hk with ⟨⟨m, hne, hm, ht⟩, -⟩ | ⟨m, u, rfl, -⟩
    · exact hlast hne hm ht (skipTrivia_suffix t)
    · have hparts := (advance_follows hadvance).opening m rfl
      rw [complete.eq_def] at hcomplete
      rcases s' with ⟨mode, st⟩
      obtain rfl : mode = .parts := hparts
      cases hcomplete

end State

end HclQuery.Grammar
