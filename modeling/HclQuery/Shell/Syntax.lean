/-!
# Shell: scripts

Filter scripts are written in a small command language: commands made of words and redirections,
joined by pipes into pipelines, which follow one another, always or depending on how the one before
ended.  Pipelines may be grouped, chosen between and repeated.  Words may be quoted, and may hold
parameters, sums and the output of other scripts.

Main definitions:

- {lit}`Word`: the pieces of a word.
- {lit}`Command`: words that name a program, or pipelines under some control.
- {lit}`Script`: pipelines, each with the condition under which it is run.
-/

namespace HclQuery.Shell

/-- A piece of a word.  The value of one that is not quoted is divided at its blanks. -/
inductive Piece where
  /-- A character that stands for itself. -/
  | char (quoted : Bool) (c : Char)
  /-- The value of a parameter. -/
  | parameter (quoted : Bool) (name : List Char)
  /-- The value of an arithmetic expression. -/
  | number (quoted : Bool) (expression : List Char)
  /-- What a script writes. -/
  | output (quoted : Bool) (script : List Char)
  deriving DecidableEq, Repr

/-- The pieces of a word. -/
abbrev Word := List Piece

/-- Where a descriptor leads after a redirection. -/
inductive Target where
  /-- A file to read from or to write to, at its end if the text is added to it. -/
  | file (adds : Bool) (path : Word)
  /-- What another descriptor leads to. -/
  | descriptor (n : Nat)
  /-- Nowhere. -/
  | closed
  deriving DecidableEq, Repr

/-- A descriptor that leads somewhere else. -/
structure Redirection where
  descriptor : Nat
  target : Target
  deriving DecidableEq, Repr

/-- When a pipeline is run, given how the one before it ended. -/
inductive Condition where
  | always
  | afterSuccess
  | afterFailure
  deriving DecidableEq, Repr

/-- A command with its redirections. -/
structure Stage (α : Type) where
  command : α
  redirections : List Redirection
  deriving Repr

/-- A pipeline with the condition under which it is run. -/
structure Step (α : Type) where
  condition : Condition
  /-- Whether it succeeds where its commands fail. -/
  negated : Bool
  /-- Whether the script does not wait for it. -/
  detached : Bool
  stages : List (Stage α)
  deriving Repr

/-- A command. -/
inductive Command where
  /-- A program and its arguments, with the line on which they stand. -/
  | simple (line : Nat) (words : List Word)
  /-- Pipelines that are run as one command. -/
  | group (body : List (Step Command))
  /-- Pipelines that cannot change the script around them. -/
  | subshell (body : List (Step Command))
  /-- One of two bodies, depending on how a test ends. -/
  | branch (test yes no : List (Step Command))
  /-- A body that is repeated as long as a test succeeds, or as long as it fails. -/
  | loop (goal : Bool) (test body : List (Step Command))
  /-- A body that is run for each of some words. -/
  | each (name : String) (words : List Word) (body : List (Step Command))
  /-- The body of the first pattern that a word matches. -/
  | choice (subject : Word) (arms : List (List Word × List (Step Command)))

/-- Pipelines, each with the condition under which it is run. -/
abbrev Script := List (Step Command)

end HclQuery.Shell
