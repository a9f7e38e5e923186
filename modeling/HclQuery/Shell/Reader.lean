import HclQuery.Shell.Token

/-!
# Shell: reading scripts

The words and marks of a text are arranged into commands and pipelines.  The lines of a script are
read one after the other, so that those before a faulty one can be run.

Main definitions:

- {lit}`Fault`: why a line cannot be read.
- {lit}`readLines`: the scripts on the lines of a text.

Main results:

- Theorem {lit}`readLines_nil`: an empty text holds no scripts and no fault.
-/

namespace HclQuery.Shell

/-! ## Faults -/

/-- Why a line cannot be read. -/
structure Fault where
  line : Nat
  /-- What stands where it cannot stand. -/
  found : Mark
  /-- What has to stand there, if it is only one thing. -/
  expected : Option String
  deriving DecidableEq, Repr

/-- The text of a word without quotes and expansions. -/
def literal? (w : Word) : Option String :=
  let cs := w.filterMap fun
    | .char false c => some c
    | _ => none
  if cs.length = w.length then some (String.ofList cs) else none

/-- The words that do not name programs. -/
def reservedWords : List String :=
  ["if", "then", "elif", "else", "fi", "while", "until", "for", "do", "done", "case", "esac",
    "\x7b", "\x7d", "!"]

/-- The reserved word that a mark is. -/
def Mark.reserved? : Mark → Option String
  | .word w => (literal? w).bind fun s => if reservedWords.contains s then some s else none
  | _ => none

/-- The name of a mark. -/
def Mark.name (m : Mark) : String :=
  match m with
  | .word _ =>
    match m.reserved? with
    | some s => s!"\"{s}\""
    | none => "word"
  | .arrow .. => "redirection"
  | .pipe => "\"|\""
  | .semicolon => "\";\""
  | .doubleSemicolon => "\";;\""
  | .newline => "newline"
  | .both => "\"&&\""
  | .either => "\"||\""
  | .background => "\"&\""
  | .openParen => "\"(\""
  | .closeParen => "\")\""
  | .unterminated => "end of file"
  | .ending => "end of file"

/-- What is said about a fault. -/
def Fault.message (f : Fault) : String :=
  match f.found, f.expected with
  | .unterminated, _ => "Syntax error: Unterminated quoted string"
  | m, none => s!"Syntax error: {m.name} unexpected"
  | m, some e => s!"Syntax error: {m.name} unexpected (expecting \"{e}\")"

/-! ## Reading -/

/-- The tokens that are left. -/
abbrev Rest := List Token

/-- The fault of the first token. -/
def unexpected {α : Type} (ts : List Token) (expected : Option String) : Except Fault α :=
  match ts with
  | [] => .error ⟨1, .ending, expected⟩
  | t :: _ => .error ⟨t.line, t.mark, expected⟩

/-- The tokens without the line ends in front of them. -/
def skipNewlines (ts : List Token) : List Token :=
  ts.dropWhile (·.mark == .newline)

/-- The reserved word in front. -/
def reserved? (ts : List Token) : Option String :=
  ts.head?.bind (·.mark.reserved?)

/-- The tokens after a reserved word. -/
def expectWord (word : String) (ts : List Token) : Except Fault (List Token) :=
  if reserved? ts = some word then .ok ts.tail else unexpected ts (some word)

/-- The mark in front. -/
def headMark (ts : List Token) : Mark :=
  (ts.head?.map (·.mark)).getD .ending

/-- Whether pipelines end in front of the tokens. -/
def closes (ts : List Token) : Bool :=
  match headMark ts with
  | .ending => true
  | .closeParen => true
  | .doubleSemicolon => true
  | _ =>
    match reserved? ts with
    | some w => ["then", "elif", "else", "fi", "do", "done", "esac", "\x7d"].contains w
    | none => false

/-- Where an arrow leads, given the word after it. -/
def target? (a : Arrow) (w : Word) : Option Target :=
  match a with
  | .file => some (.file false w)
  | .fileEnd => some (.file true w)
  | .descriptor =>
    if w = [.char false '-'] then some .closed else (wordNumber? w).map .descriptor

/-- The words and redirections of a command. -/
def parts : List Token → Except Fault ((List Word × List Redirection) × Rest)
  | ⟨l, .arrow n a⟩ :: ts =>
    match ts with
    | ⟨_, .word w⟩ :: rest =>
      match target? a w, parts rest with
      | some target, .ok ((ws, rs), ts) => .ok ((ws, ⟨n, target⟩ :: rs), ts)
      | none, _ => .error ⟨l, .arrow n a, none⟩
      | _, .error f => .error f
    | ts => unexpected ts none
  | ⟨_, .word w⟩ :: ts =>
    match parts ts with
    | .ok ((ws, rs), ts) => .ok ((w :: ws, rs), ts)
    | .error f => .error f
  | ts => .ok (([], []), ts)

/-- A command that consists of words. -/
def simple (ts : List Token) : Except Fault (Stage Command × Rest) :=
  match parts ts with
  | .error f => .error f
  | .ok (([], []), ts) => unexpected ts none
  | .ok ((ws, rs), rest) => .ok (⟨.simple ((ts.head?.map (·.line)).getD 1) ws, rs⟩, rest)

/-- A command under some control, with the redirections after it. -/
def controlled (r : Except Fault (Command × Rest)) : Except Fault (Stage Command × Rest) := do
  let (c, ts) ← r
  match ← parts ts with
  | (([], rs), ts) => .ok (⟨c, rs⟩, ts)
  | _ => unexpected ts none

/-- The words up to the end of a line, or up to a semicolon. -/
def wordsOf : List Token → List Word × List Token
  | ⟨_, .word w⟩ :: ts =>
    let (ws, ts) := wordsOf ts
    (w :: ws, ts)
  | ts => ([], ts)

/-- The patterns in front of a body, up to a closing parenthesis. -/
def patterns : List Token → Except Fault (List Word × Rest)
  | ⟨_, .word w⟩ :: ⟨_, .closeParen⟩ :: ts => .ok ([w], ts)
  | ⟨_, .word w⟩ :: ⟨_, .pipe⟩ :: ts => do
    let (ws, ts) ← patterns ts
    .ok (w :: ws, ts)
  | ⟨_, .word _⟩ :: ts => unexpected ts (some ")")
  | ts => unexpected ts none

/-- The arguments of the script, which a loop without words is run for. -/
def allArguments : Word :=
  [.parameter true ['@']]

/-- A pipeline that is one command, under no condition. -/
def Step.of (c : Command) : Step Command :=
  ⟨.always, false, false, [⟨c, []⟩]⟩

mutual

/-- Pipelines up to what closes them, or, on the outermost level, up to the end of the line. -/
def steps (outermost : Bool) (fuel : Nat) (condition : Condition) (ts : List Token) :
    Except Fault (Script × Rest) :=
  match fuel with
  | 0 => unexpected ts none
  | fuel + 1 =>
    let ts := skipNewlines ts
    if condition = .always ∧ closes ts then .ok ([], ts)
    else do
      let negated := reserved? ts = some "!"
      let (stages, ts) ← pipeline fuel (if negated then ts.tail else ts)
      let detached := headMark ts = .background
      let step : Step Command := ⟨condition, negated, detached, stages⟩
      let more (condition : Condition) (ts : List Token) : Except Fault (Script × Rest) := do
        let (rest, ts) ← steps outermost fuel condition ts
        .ok (step :: rest, ts)
      match headMark ts with
      | .both => more .afterSuccess ts.tail
      | .either => more .afterFailure ts.tail
      | .background =>
        if outermost && headMark ts.tail == .newline then .ok ([step], ts.tail)
        else more .always ts.tail
      | .semicolon =>
        if outermost && headMark ts.tail == .newline then .ok ([step], ts.tail)
        else more .always ts.tail
      | .newline => if outermost then .ok ([step], ts) else more .always ts.tail
      | _ => if closes ts then .ok ([step], ts) else unexpected ts none

/-- Commands joined by pipes. -/
def pipeline (fuel : Nat) (ts : List Token) : Except Fault (List (Stage Command) × Rest) :=
  match fuel with
  | 0 => unexpected ts none
  | fuel + 1 => do
    let (stage, ts) ← stage fuel ts
    if headMark ts = .pipe then
      let (rest, ts) ← pipeline fuel (skipNewlines ts.tail)
      .ok (stage :: rest, ts)
    else .ok ([stage], ts)

/-- A command with its redirections. -/
def stage (fuel : Nat) (ts : List Token) : Except Fault (Stage Command × Rest) :=
  match fuel with
  | 0 => unexpected ts none
  | fuel + 1 =>
    if headMark ts = .openParen then
      controlled do
        let (body, ts) ← steps false fuel .always ts.tail
        if headMark ts = .closeParen then .ok (.subshell body, ts.tail)
        else unexpected ts (some ")")
    else
      match reserved? ts with
      | none => simple ts
      | some "\x7b" =>
        controlled do
          let (body, ts) ← steps false fuel .always ts.tail
          .ok (.group body, ← expectWord "\x7d" ts)
      | some "if" => controlled (branch fuel ts.tail)
      | some "while" => controlled (repetition true fuel ts.tail)
      | some "until" => controlled (repetition false fuel ts.tail)
      | some "for" => controlled (enumeration fuel ts.tail)
      | some "case" => controlled (selection fuel ts.tail)
      | some _ => unexpected ts none

/-- The rest of a choice between two bodies. -/
def branch (fuel : Nat) (ts : List Token) : Except Fault (Command × Rest) :=
  match fuel with
  | 0 => unexpected ts none
  | fuel + 1 => do
    let (test, ts) ← steps false fuel .always ts
    let (yes, ts) ← steps false fuel .always (← expectWord "then" ts)
    match reserved? ts with
    | some "elif" =>
      let (c, ts) ← branch fuel ts.tail
      .ok (.branch test yes [Step.of c], ts)
    | some "else" =>
      let (no, ts) ← steps false fuel .always ts.tail
      .ok (.branch test yes no, ← expectWord "fi" ts)
    | _ => .ok (.branch test yes [], ← expectWord "fi" ts)

/-- The rest of a repetition. -/
def repetition (goal : Bool) (fuel : Nat) (ts : List Token) : Except Fault (Command × Rest) :=
  match fuel with
  | 0 => unexpected ts none
  | fuel + 1 => do
    let (test, ts) ← steps false fuel .always ts
    let (body, ts) ← steps false fuel .always (← expectWord "do" ts)
    .ok (.loop goal test body, ← expectWord "done" ts)

/-- The rest of a repetition for some words. -/
def enumeration (fuel : Nat) (ts : List Token) : Except Fault (Command × Rest) :=
  match fuel with
  | 0 => unexpected ts none
  | fuel + 1 =>
    match ts with
    | ⟨l, .word w⟩ :: ts => do
      let name ← (literal? w).elim (.error ⟨l, .word w, none⟩) .ok
      let after := skipNewlines ts
      let (words, ts) := match after with
        | ⟨_, .word v⟩ :: rest =>
          if literal? v = some "in" then wordsOf rest else ([allArguments], after)
        | _ => ([allArguments], after)
      let ts := if headMark ts = .semicolon then ts.tail else ts
      let (body, ts) ← steps false fuel .always (← expectWord "do" (skipNewlines ts))
      .ok (.each name words body, ← expectWord "done" ts)
    | ts => unexpected ts none

/-- The rest of a choice by patterns. -/
def selection (fuel : Nat) (ts : List Token) : Except Fault (Command × Rest) :=
  match fuel with
  | 0 => unexpected ts none
  | fuel + 1 =>
    match ts with
    | ⟨_, .word subject⟩ :: ts =>
      match skipNewlines ts with
      | ⟨l, .word w⟩ :: ts =>
        if literal? w = some "in" then do
          let (as, ts) ← arms fuel ts
          .ok (.choice subject as, ts)
        else .error ⟨l, .word w, some "in"⟩
      | ts => unexpected ts (some "in")
    | ts => unexpected ts none

/-- Patterns with their bodies. -/
def arms (fuel : Nat) (ts : List Token) : Except Fault (List (List Word × Script) × Rest) :=
  match fuel with
  | 0 => unexpected ts none
  | fuel + 1 =>
    let ts := skipNewlines ts
    if reserved? ts = some "esac" then .ok ([], ts.tail)
    else do
      let (ps, ts) ← patterns (if headMark ts = .openParen then ts.tail else ts)
      let (body, ts) ← steps false fuel .always ts
      if headMark ts = .doubleSemicolon then
        let (rest, ts) ← arms fuel ts.tail
        .ok ((ps, body) :: rest, ts)
      else .ok ([(ps, body)], ← expectWord "esac" ts)

end

/-! ## Whole texts -/

/-- The scripts on the lines that tokens make up, and what is wrong with the line after them. -/
def linesFrom : Nat → List Token → List Script × Option Fault
  | 0, _ => ([], none)
  | fuel + 1, ts =>
    let ts := skipNewlines ts
    if headMark ts = .ending then ([], none)
    else
      match steps true (2 * ts.length + 2) .always ts with
      | .error f => ([], some f)
      | .ok (script, rest) =>
        if script.isEmpty ∨ (headMark rest ≠ .newline ∧ headMark rest ≠ .ending) then
          ([], match rest with
            | [] => none
            | t :: _ => some ⟨t.line, t.mark, none⟩)
        else
          let (scripts, fault) := linesFrom fuel rest
          (script :: scripts, fault)

/-- The scripts on the lines of a text, and what is wrong with the line after them. -/
def readLines (t : List Char) : List Script × Option Fault :=
  let ts := tokens t
  linesFrom ts.length ts

/-- An empty text holds no scripts and no fault. -/
theorem readLines_nil : readLines [] = ([], none) := by
  simp [readLines, tokens, tokensFrom, flush, linesFrom, skipNewlines, headMark]

end HclQuery.Shell
