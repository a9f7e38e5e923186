import HclQuery.Shell.Escape

/-!
# Shell: patterns and substitutions

The patterns of {lit}`sed`: characters, points, sets and stars, and marks for the ends of a line.

Main definitions:

- {lit}`Pattern.match?`: the text after the longest match at the front of a line.
- {lit}`Substitution.apply`: a line with matches replaced.
-/

namespace HclQuery.Shell

/-- What stands for one byte. -/
inductive Atom where
  | byte (b : UInt8)
  | any
  | set (negated : Bool) (members : List (UInt8 × UInt8))
  deriving DecidableEq, Repr

/-- Whether an atom stands for a byte. -/
def Atom.admits (b : UInt8) : Atom → Bool
  | byte c => b == c
  | any => true
  | set negated members => members.any (fun r => r.1 ≤ b && b ≤ r.2) != negated

/-- A part of a pattern. -/
inductive Item where
  | one (a : Atom)
  | many (a : Atom)
  | lineEnd
  deriving DecidableEq, Repr

/-- A pattern. -/
structure Pattern where
  /-- Whether it only matches at the front of a line. -/
  anchored : Bool
  items : List Item
  deriving DecidableEq, Repr

mutual

/-- The text after the longest match of items at the front of a text. -/
def matchItems (items : List Item) (t : List UInt8) : Option (List UInt8) :=
  match items with
  | [] => some t
  | .one a :: items =>
    match t with
    | [] => none
    | b :: t => if a.admits b then matchItems items t else none
  | .many a :: items => matchMany a items t
  | .lineEnd :: items => if t.isEmpty then matchItems items t else none
termination_by (items.length, t.length + 1)

/-- The text after the longest match of an atom, any number of times, and items after it. -/
def matchMany (a : Atom) (items : List Item) (t : List UInt8) : Option (List UInt8) :=
  match t with
  | [] => matchItems items []
  | b :: t =>
    if a.admits b then
      match matchMany a items t with
      | some r => some r
      | none => matchItems items (b :: t)
    else matchItems items (b :: t)
termination_by (items.length + 1, t.length)

end

/-! ## Reading patterns -/

/-- The ranges of the members of a set. -/
def ranges : List UInt8 → List (UInt8 × UInt8)
  | [] => []
  | [b] => [(b, b)]
  | [b, c] => [(b, b), (c, c)]
  | b :: c :: d :: t => if c = 0x2d then (b, d) :: ranges t else (b, b) :: ranges (c :: d :: t)

/-- The ranges of a set up to its closing bracket, and the rest. -/
def setMembers (t : List UInt8) : Option (List (UInt8 × UInt8) × List UInt8) :=
  match t.dropWhile (· != 0x5d) with
  | [] => none
  | _ :: r => some (ranges (t.takeWhile (· != 0x5d)), r)

/-- The atom at the front of a pattern, and the rest. -/
def atom? : List UInt8 → Option (Atom × List UInt8)
  | [] => none
  | 0x2e :: t => some (.any, t)
  | 0x5b :: 0x5e :: t => (setMembers t).map fun (ms, r) => (.set true ms, r)
  | 0x5b :: t => (setMembers t).map fun (ms, r) => (.set false ms, r)
  | 0x5c :: 0x6e :: t => some (.byte 0x0a, t)
  | 0x5c :: b :: t => some (.byte b, t)
  | b :: t => some (.byte b, t)

/-- The items of a pattern, at most `fuel` of them. -/
def itemsFrom : Nat → List UInt8 → Option (List Item)
  | 0, _ => none
  | _ + 1, [] => some []
  | _ + 1, [0x24] => some [.lineEnd]
  | fuel + 1, t =>
    match atom? t with
    | none => none
    | some (a, 0x2a :: r) => (itemsFrom fuel r).map (.many a :: ·)
    | some (a, r) => (itemsFrom fuel r).map (.one a :: ·)

/-- The pattern of a text. -/
def Pattern.ofBytes? (t : List UInt8) : Option Pattern :=
  match t with
  | 0x5e :: r => (itemsFrom (r.length + 1) r).map fun is => ⟨true, is⟩
  | _ => (itemsFrom (t.length + 1) t).map fun is => ⟨false, is⟩

/-- Whether items match somewhere in a text. -/
def occurIn (items : List Item) : List UInt8 → Bool
  | [] => (matchItems items []).isSome
  | b :: t => (matchItems items (b :: t)).isSome || occurIn items t

/-- Whether a pattern matches somewhere in a line. -/
def Pattern.occursIn (p : Pattern) (line : List UInt8) : Bool :=
  if p.anchored then (matchItems p.items line).isSome else occurIn p.items line

/-- The items of a pattern for whole words, in which a star and a question mark that are not quoted
stand for any text and for any byte. -/
def wordItems : List (Bool × Char) → List Item
  | [] => [.lineEnd]
  | (false, '*') :: cs => .many .any :: wordItems cs
  | (false, '?') :: cs => .one .any :: wordItems cs
  | (_, c) :: cs => (String.utf8EncodeChar c).map (fun b => .one (.byte b)) ++ wordItems cs

/-! ## Substitutions -/

/-- Matches of a pattern are replaced by a text. -/
structure Substitution where
  pattern : Pattern
  /-- What stands in place of a match; nothing stands for the match itself. -/
  replacement : List (Option UInt8)
  /-- Whether every match of a line is replaced and not only the first one. -/
  every : Bool
  deriving Repr

/-- The text of a part of a substitution up to its divider, and the rest. -/
def untilDivider (divider : UInt8) : List UInt8 → Option (List UInt8 × List UInt8)
  | [] => none
  | [b] => if b = divider then some ([], []) else none
  | b :: c :: t =>
    if b = divider then some ([], c :: t)
    else if b = 0x5c then
      (untilDivider divider t).map fun (s, r) =>
        (if c = divider then c :: s else b :: c :: s, r)
    else (untilDivider divider (c :: t)).map fun (s, r) => (b :: s, r)

/-- The parts of a replacement. -/
def replacementParts : List UInt8 → List (Option UInt8)
  | [] => []
  | [0x5c] => [some 0x5c]
  | 0x5c :: 0x6e :: t => some 0x0a :: replacementParts t
  | 0x5c :: b :: t => some b :: replacementParts t
  | 0x26 :: t => none :: replacementParts t
  | b :: t => some b :: replacementParts t

namespace Substitution

/-- The substitution at the front of a text, and the rest. -/
def ofBytes? : List UInt8 → Option (Substitution × List UInt8)
  | 0x73 :: divider :: t => do
    let (pattern, t) ← untilDivider divider t
    let (replacement, t) ← untilDivider divider t
    let pattern ← Pattern.ofBytes? pattern
    let flags := t.takeWhile (· == 0x67)
    some (⟨pattern, replacementParts replacement, !flags.isEmpty⟩, t.drop flags.length)
  | _ => none

/-- The substitutions that a text asks for, one after the other, at most `fuel` of them. -/
def listOfBytes? : Nat → List UInt8 → Option (List Substitution)
  | 0, _ => none
  | fuel + 1, t =>
    match t.dropWhile fun b => b == 0x20 || b == 0x3b || b == 0x0a with
    | [] => some []
    | t =>
      match ofBytes? t with
      | none => none
      | some (s, r) =>
        if r.isEmpty ∨ r.head? = some 0x3b ∨ r.head? = some 0x0a then
          (listOfBytes? fuel r).map (s :: ·)
        else none

/-- What stands in place of a match. -/
def replace (s : Substitution) (matched : List UInt8) : List UInt8 :=
  s.replacement.flatMap fun
    | some b => [b]
    | none => matched

/-- The text with matches replaced, at its front or further on, the replaced part before it given in
reverse; `fuel` bounds the number of steps. -/
def applyFrom (s : Substitution) : Nat → Bool → List UInt8 → List UInt8 → List UInt8
  | 0, _, done, t => done.reverse ++ t
  | fuel + 1, first, done, t =>
    if s.pattern.anchored && !first then done.reverse ++ t
    else
      match matchItems s.pattern.items t with
      | some r =>
        let matched := t.take (t.length - r.length)
        let done := (s.replace matched).reverse ++ done
        if !s.every then done.reverse ++ r
        else if matched.isEmpty then
          match t with
          | [] => done.reverse
          | b :: t => applyFrom s fuel false (b :: done) t
        else if r.isEmpty then done.reverse
        else applyFrom s fuel false done r
      | none =>
        match t with
        | [] => done.reverse
        | b :: t => applyFrom s fuel false (b :: done) t

/-- A line with matches replaced. -/
def apply (s : Substitution) (line : List UInt8) : List UInt8 :=
  s.applyFrom (line.length + 1) true [] line

end Substitution

end HclQuery.Shell
