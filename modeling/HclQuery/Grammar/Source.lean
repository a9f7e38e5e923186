import HclQuery.Grammar.Expression
import HclQuery.Label
import HclQuery.Text.Extent
import HclQuery.Tree

/-!
# Grammar: whole files

A file is a sequence of attributes and blocks.  It is read as a sequence of steps, each of which
sets an attribute, opens a block or closes one, and the steps are then put together to a tree.  A
file may also be one object; it has no attributes or blocks then.

Main definitions:

- {lit}`Step`: what the next item of a file does.
- {lit}`steps`: the steps of a text.
- {lit}`build`: the tree of steps.
- {lit}`parseObject`: the tree of a file that is one object.

Main results:

- Theorem {lit}`step?_length`: a step takes at least one character.
-/

namespace HclQuery.Grammar

open Text HclQuery.Tree

/-- What the next item of a file does. -/
inductive Step where
  /-- Sets an attribute to an expression, given as its text. -/
  | set (name : List Char) (raw : List Char)
  /-- Opens a block. -/
  | enter (kind : List Char) (labels : List String)
  /-- Closes the innermost block. -/
  | leave
  deriving DecidableEq, Repr

/-- Where a text cannot go on. -/
inductive Place where
  /-- In front of an item, inside so many blocks. -/
  | item (depth : Nat)
  /-- After the name that begins an item, and perhaps labels. -/
  | header (labels : Nat)
  /-- Inside a label. -/
  | label
  /-- Inside an expression. -/
  | expression (s : State)
  /-- After the lone object of a file. -/
  | afterObject
  deriving DecidableEq, Repr

/-- A place where a text cannot go on, and what is left of the text. -/
structure Stuck where
  place : Place
  unread : List Char
  deriving DecidableEq, Repr

/-- The labels of a block up to its opening brace, of which `count` have been read. -/
def labels (count : Nat) (t : List Char) : Except Stuck (List String × List Char) :=
  match _h : skipTrivia t with
  | [] => .error ⟨.header count, []⟩
  | c :: u =>
    if c = '{' then .ok ([], u)
    else if c = '"' then
      match _h2 : literal? u with
      | none => .error ⟨.label, c :: u⟩
      | some v =>
        match labels (count + 1) v with
        | .error e => .error e
        | .ok (ls, w) => .ok (Label.unquote (String.ofList (consumed (c :: u) v)) :: ls, w)
    else
      match _h3 : identifier? (c :: u) with
      | none => .error ⟨.header count, c :: u⟩
      | some (name, v) =>
        match labels (count + 1) v with
        | .error e => .error e
        | .ok (ls, w) => .ok (String.ofList name :: ls, w)
termination_by t.length
decreasing_by
  · have h1 := skipTrivia_length_le t
    have h2 := literal?_length _h2
    simp only [_h, List.length_cons] at h1
    omega
  · have h1 := skipTrivia_length_le t
    have h3 := identifier?_length _h3
    simp only [_h] at h1
    omega

/-- The labels of a header take at least the brace after them. -/
theorem labels_length {n : Nat} {t r : List Char} {ls : List String}
    (h : labels n t = .ok (ls, r)) : r.length < t.length := by
  fun_induction labels n t generalizing ls with
  | case1 => simp at h
  | case2 n t u ht =>
    obtain ⟨-, rfl⟩ : _ ∧ _ := by simpa using h
    have := skipTrivia_length_le t
    rw [ht, List.length_cons] at this
    omega
  | case3 => simp at h
  | case4 => simp at h
  | case5 n t u v hv ls' w hl ht _ ih =>
    obtain ⟨-, rfl⟩ : _ ∧ _ := by simpa using h
    have h1 := skipTrivia_length_le t
    rw [ht, List.length_cons] at h1
    have := literal?_length hv
    have := ih hl
    omega
  | case6 => simp at h
  | case7 => simp at h
  | case8 n t c u ht _ _ name v hv ls' w hl ih =>
    obtain ⟨-, rfl⟩ : _ ∧ _ := by simpa using h
    have h1 := skipTrivia_length_le t
    rw [ht] at h1
    have := identifier?_length hv
    have := ih hl
    omega

/-- The rest of an item after the name that it begins with. -/
def afterName (name : List Char) (t : List Char) : Except Stuck (Step × List Char) :=
  match skipTrivia t with
  | '=' :: u =>
    let v := skipTrivia u
    match scan v with
    | .ok w => .ok (.set name (consumed v w), w)
    | .error (s, w) => .error ⟨.expression s, w⟩
  | _ =>
    match labels 0 t with
    | .ok (ls, v) => .ok (.enter name ls, v)
    | .error e => .error e

/-- The next step of a text, inside so many blocks; none at the end of the text. -/
def step? (depth : Nat) (t : List Char) : Except Stuck (Option (Step × List Char)) :=
  match skipTrivia t with
  | [] => if depth = 0 then .ok none else .error ⟨.item depth, []⟩
  | c :: u =>
    if c = '}' then
      if depth = 0 then .error ⟨.item depth, c :: u⟩ else .ok (some (.leave, u))
    else
      match identifier? (c :: u) with
      | none => .error ⟨.item depth, c :: u⟩
      | some (name, v) =>
        match afterName name v with
        | .ok x => .ok (some x)
        | .error e => .error e

/-- The rest of an item takes at least one character. -/
theorem afterName_length {name t r : List Char} {x : Step} (h : afterName name t = .ok (x, r)) :
    r.length < t.length := by
  unfold afterName at h
  split at h
  · next u ht =>
    have h1 := skipTrivia_length_le t
    have h2 := skipTrivia_length_le u
    rw [ht, List.length_cons] at h1
    simp only at h
    split at h
    · next hs =>
      have := scan_length hs
      obtain ⟨-, rfl⟩ : _ ∧ _ := by simpa using h
      omega
    · simp at h
  · split at h
    · next hl =>
      have := labels_length hl
      obtain ⟨-, rfl⟩ : _ ∧ _ := by simpa using h
      exact this
    · simp at h

/-- A step takes at least one character. -/
theorem step?_length {depth : Nat} {t r : List Char} {x : Step}
    (h : step? depth t = .ok (some (x, r))) : r.length < t.length := by
  have h1 := skipTrivia_length_le t
  unfold step? at h
  split at h
  · split at h <;> simp at h
  · next c u ht =>
    rw [ht] at h1
    split at h
    · split at h
      · simp at h
      · obtain ⟨-, rfl⟩ : _ ∧ _ := by simpa using h
        simp only [List.length_cons] at h1
        omega
    · split at h
      · simp at h
      · next hi =>
        have h2 := identifier?_length hi
        split at h
        · next ha =>
          obtain rfl : _ = (x, r) := by simpa using h
          have := afterName_length ha
          omega
        · simp at h

/-- The depth after a step. -/
def Step.depth (depth : Nat) : Step → Nat
  | set .. => depth
  | enter .. => depth + 1
  | leave => depth - 1

/-- The steps of a text, inside so many blocks. -/
def steps (depth : Nat) (t : List Char) : Except Stuck (List Step) :=
  match _h : step? depth t with
  | .error e => .error e
  | .ok none => .ok []
  | .ok (some (x, r)) =>
    match steps (x.depth depth) r with
    | .error e => .error e
    | .ok xs => .ok (x :: xs)
termination_by t.length
decreasing_by exact step?_length _h

/-- A block that is open: its kind and labels, and the items before it, the last one first. -/
structure Opened where
  kind : String
  labels : List String
  before : List Item

/-- The items of the steps, inside open blocks, given the items read so far, the last one first. -/
def buildFrom (opened : List Opened) (items : List Item) : List Step → Body
  | [] => items.reverse
  | .set name raw :: xs =>
    buildFrom opened (.attr ⟨String.ofList name, String.ofList raw⟩ :: items) xs
  | .enter kind labels :: xs => buildFrom (⟨String.ofList kind, labels, items⟩ :: opened) [] xs
  | .leave :: xs =>
    match opened with
    | [] => buildFrom [] items xs
    | o :: os => buildFrom os (.block o.kind o.labels items.reverse :: o.before) xs

/-- The tree of steps. -/
def build (xs : List Step) : Body :=
  buildFrom [] [] xs

/-- The text without the byte order mark that may stand at its very front. -/
def dropMark (t : List Char) : List Char :=
  match t with
  | c :: u => if c = '\ufeff' then u else t
  | [] => []

/-- A file that is one object, of which the brace has been read: it has no items. -/
def parseObject (t : List Char) : Except Stuck Body :=
  match scanObject t with
  | .error (s, u) => .error ⟨.expression s, u⟩
  | .ok u =>
    match skipTrivia u with
    | [] => .ok []
    | v => .error ⟨.afterObject, v⟩

end HclQuery.Grammar
