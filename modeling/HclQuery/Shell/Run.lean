import HclQuery.Shell.Reader
import HclQuery.Shell.State

/-!
# Shell: running scripts

A script is run pipeline by pipeline.  Every command changes the state, and the script stops early
if a command says so.  The number of steps is limited, and a script that takes more of them counts
as killed.

Main definitions:

- {lit}`runSteps`: the state after pipelines.
- {lit}`runScript`: what a script does.

Main results:

- Theorem {lit}`runScript_empty`: an empty script succeeds, writes nothing and reads nothing.
-/

namespace HclQuery.Shell

/-! ## Redirections -/

/-- The directory that a path leads through at last. -/
def parentOf (path : String) : String :=
  let above := path.toList.reverse.dropWhile (· != '/')
  String.ofList (above.drop 1).reverse

/-- The state in which a file can be written; it is empty unless text is added to it. -/
def prepare (setting : Setting) (s : State) (adds : Bool) (path : String) : State :=
  if adds then
    match (s.disk setting).read path with
    | .ok bytes => { s with files := (path, bytes) :: s.files }
    | .error _ => s
  else { s with files := (path, []) :: s.files }

/-- The state with a descriptor that leads to a file to be written, or why it cannot. -/
def writeTo (setting : Setting) (s : State) (descriptor : Nat) (adds : Bool) (path : String) :
    Except String State :=
  let parent := parentOf path
  let put (s : State) (sink : Sink) : State := { s with sinks := s.sinks.put descriptor sink }
  if path = "/dev/stderr" then .ok (put s s.sinks.two)
  else if path = "/dev/stdout" then .ok (put s s.sinks.one)
  else if parent = "/dev" then .ok (put s .nowhere)
  else if parent.isEmpty || setting.disk.leads parent then
    .ok (put (prepare setting s adds path) (.file path))
  else .error s!"cannot create {path}: Directory nonexistent"

/-- The state with a descriptor that leads to a file, or why it cannot. -/
def openFile (setting : Setting) (s : State) (descriptor : Nat) (adds : Bool) (path : String) :
    Except String State :=
  if descriptor = 0 then
    match (s.disk setting).read path with
    | .ok bytes => .ok { s with stdin := some bytes }
    | .error .notFound => .error s!"cannot open {path}: No such file"
    | .error e => .error s!"cannot open {path}: {refusal e}"
  else writeTo setting s descriptor adds path

/-- The state in which redirections are no longer in force. -/
def restored (s after : State) (redirections : List Redirection) : State :=
  let elsewhere := redirections.any (·.descriptor = 0)
  { after with sinks := s.sinks, stdin := if elsewhere then s.stdin else after.stdin }

/-- The state in which redirections stay in force. -/
def adopted (s after : State) (redirections : List Redirection) : State :=
  let elsewhere := redirections.any (·.descriptor = 0)
  let given := if elsewhere then (s.stdin.getD []).length else 0
  { after with status := 0, abandoned := s.abandoned + given }

/-! ## Commands of the shell itself -/

/-- The name and the value of an assignment. -/
def assignment? (w : Word) : Option (String × Word) :=
  let name := w.takeWhile fun
    | .char false c => isNameChar c
    | _ => false
  match w.drop name.length with
  | .char false '=' :: value =>
    let name := name.filterMap fun
      | .char _ c => some c
      | _ => none
    if name.isEmpty ∨ (name.head?.any Char.isDigit) then none
    else some (String.ofList name, value)
  | _ => none

/-- The assignments in front of the words of a command, and the other words. -/
def assignments : List Word → List (String × Word) × List Word
  | [] => ([], [])
  | w :: ws =>
    match assignment? w with
    | some a =>
      let (as, ws) := assignments ws
      (a :: as, ws)
    | none => ([], w :: ws)

/-- Whether the value of a word depends on what a script writes. -/
def holdsOutput (w : Word) : Bool :=
  w.any fun
    | .output .. => true
    | _ => false

/-- Whether a signal is one that ends a program. -/
def isDeadly (signal : String) : Bool :=
  let harmless := ["-0", "-17", "-18", "-23", "-28", "-CHLD", "-CONT", "-URG", "-WINCH"]
  harmless.all (· != signal)

/-- The state after a signal. -/
def kill (s : State) (args : List String) : State :=
  let signal := args.find? fun a => a.startsWith "-"
  if args.contains "$" && isDeadly (signal.getD "-15") then { s with ending := some .killed }
  else { s with status := 0 }

/-- The exit status that an argument asks for. -/
def statusOf (s : State) (args : List String) : Nat :=
  ((args.head?.bind String.toNat?).getD s.status) % 256

/-- The state with options and arguments as they are asked for. -/
def setOptions (s : State) (args : List String) : State :=
  let options := args.takeWhile fun a => a.startsWith "-" && a != "--"
  let strict := s.strict || options.any fun a => a.toList.contains 'e'
  let s := { s with status := 0, strict }
  match args.drop options.length with
  | "--" :: rest => { s with arguments := rest }
  | [] => s
  | rest => { s with arguments := rest }

/-- The text without the blanks at its ends. -/
def trimmed (t : List Char) : List Char :=
  let isBlank (c : Char) : Bool := c == ' ' || c == '\t'
  ((t.dropWhile isBlank).reverse.dropWhile isBlank).reverse

/-- The state with parts of a line in variables, the last of which gets all that is left. -/
def bindAll (s : State) (line : List Char) : List String → State
  | [] => s
  | [name] => s.bind name (String.ofList (trimmed line))
  | name :: names =>
    let line := trimmed line
    let first := line.takeWhile fun c => c != ' ' && c != '\t'
    bindAll (s.bind name (String.ofList first)) (line.drop first.length) names

/-- The state after a line has been read into variables. -/
def readInto (s : State) (args : List String) : State :=
  let names := args.filter (· != "-r")
  let bytes := s.stdin.getD []
  let line := bytes.takeWhile (· != 0x0a)
  let text := Text.Utf8.lossy line
  let text := if args.contains "-r" then text else text.filter (· != '\\')
  let s := bindAll s text names
  { s with
    status := if line.length < bytes.length then 0 else 1
    stdin := s.stdin.map fun _ => bytes.drop (line.length + 1) }

/-- The state after the first arguments have been dropped. -/
def shift (setting : Setting) (s : State) (line : Nat) (args : List String) : State :=
  let n := (args.head?.bind String.toNat?).getD 1
  if n ≤ s.arguments.length then { s with status := 0, arguments := s.arguments.drop n }
  else
    { s.complain setting line 2 "shift: can't shift that many" with ending := some (.exited 2) }

/-- The state after a program, or after the complaint that there is no such program. -/
def runProgram (setting : Setting) (s : State) (line : Nat) (name : String) (args : List String) :
    State :=
  match runTool (s.disk setting) (some s!"{setting.name}: {line}: ") name args s.stdin with
  | some r =>
    let s := (s.write s.sinks.one r.output).write s.sinks.two r.complaint
    { s with status := r.status, stdin := r.unread }
  | none => s.complain setting line 127 s!"{name}: not found"

/-- The value of a sum. -/
def numberOf (setting : Setting) (s : State) (expression : List Char) : List Char :=
  match Arithmetic.value? (fun name => parameter setting s name.toList) expression with
  | some n => s!"{n}".toList
  | none => []

/-- A part with a value that may be quoted. -/
def valued (quoted : Bool) (value : List Char) : Part :=
  if quoted then .fixed true value else .divided value

/-- Whether a pipeline is run. -/
def Condition.holds (s : State) : Condition → Bool
  | always => true
  | afterSuccess => s.status == 0
  | afterFailure => s.status != 0

/-- The state after a command that fails in a script that is not to go on then. -/
def ended (s : State) (excused : Bool) : State :=
  if s.strict && !s.guarded && !excused && s.status != 0 && s.ending.isNone then
    { s with ending := some (.exited s.status) }
  else s

/-- The state of a script that takes too many steps. -/
def exhausted (s : State) : State :=
  { s with ending := some .killed }

/-! ## Scripts -/

mutual

/-- The parts of a word. -/
def resolve (fuel : Nat) (setting : Setting) (s : State) (w : Word) : State × List Part :=
  match fuel with
  | 0 => (exhausted s, [])
  | fuel + 1 =>
    let (s, ps) := w.foldl (fun (acc : State × List Part) p =>
      let (s, ps) := acc
      match p with
      | .char quoted c => (s, .fixed quoted [c] :: ps)
      | .parameter true ['@'] => (s, .arguments s.arguments :: ps)
      | .parameter quoted name => (s, valued quoted (parameterOrElse setting s name).toList :: ps)
      | .number quoted expression => (s, valued quoted (numberOf setting s expression) :: ps)
      | .output quoted script =>
        let (s, value) := capture fuel setting s script
        (s, valued quoted value :: ps)) (s, [])
    (s, ps.reverse)

/-- What a script writes, without the newlines at its end. -/
def capture (fuel : Nat) (setting : Setting) (s : State) (script : List Char) :
    State × List Char :=
  match fuel with
  | 0 => (exhausted s, [])
  | fuel + 1 =>
    let sinks := { s.sinks with one := .output }
    let inner := runText fuel setting { s with output := [], sinks } script
    let value := (Text.Utf8.lossy inner.written).reverse.dropWhile (· == '\n')
    (s.around { inner with output := s.output }, value.reverse)

/-- The fields of words. -/
def expand (fuel : Nat) (setting : Setting) (s : State) (ws : List Word) : State × List String :=
  match fuel with
  | 0 => (exhausted s, [])
  | fuel + 1 =>
    ws.foldl (fun (acc : State × List String) w =>
      let (s, ps) := resolve fuel setting acc.1 w
      (s, acc.2 ++ fieldsOf ps)) (s, [])

/-- The state with assignments. -/
def assign (fuel : Nat) (setting : Setting) (s : State) (as : List (String × Word)) : State :=
  match fuel with
  | 0 => exhausted s
  | fuel + 1 =>
    as.foldl (fun s a =>
      let (s, ps) := resolve fuel setting s a.2
      s.bind a.1 (String.ofList (textOf ps))) s

/-- The state with redirections, or why one of them fails. -/
def redirect (fuel : Nat) (setting : Setting) (s : State) (rs : List Redirection) :
    Except String State :=
  match fuel with
  | 0 => .ok (exhausted s)
  | fuel + 1 =>
    rs.foldl (fun acc r =>
      match acc, r.target with
      | .error e, _ => .error e
      | .ok s, .file adds path =>
        let (s, ps) := resolve fuel setting s path
        openFile setting s r.descriptor adds (String.ofList (textOf ps))
      | .ok s, .descriptor n =>
        .ok { s with sinks := s.sinks.put r.descriptor (s.sinks.get n) }
      | .ok s, .closed =>
        .ok (if r.descriptor = 0 then { s with stdin := none }
          else { s with sinks := s.sinks.put r.descriptor .nowhere })) (.ok s)

/-- The state after a command that consists of fields; one without any keeps the status `idle`. -/
def runFields (fuel : Nat) (setting : Setting) (s : State) (line idle : Nat)
    (fields : List String) : State :=
  match fuel with
  | 0 => exhausted s
  | fuel + 1 =>
    match fields with
    | [] => { s with status := idle }
    | "exit" :: args =>
      { s with status := statusOf s args, ending := some (.exited (statusOf s args)) }
    | "kill" :: args => kill s args
    | "exec" :: name :: args =>
      let known := name = "sh" ∨ toolNames.contains name
      let after :=
        if known then runFields fuel setting s line 0 (name :: args)
        else s.complain setting line 127 s!"exec: {name}: not found"
      { after with ending := after.ending.or (some (.exited after.status)) }
    | "command" :: name :: args => runFields fuel setting s line 0 (name :: args)
    | "eval" :: args => runText fuel setting s (" ".intercalate args).toList
    | "sh" :: "-c" :: script :: args =>
      let inner := runText fuel { setting with name := args.headD "sh" }
        { s with arguments := args.tail, strict := false, guarded := false } script.toList
      s.around inner
    | "set" :: args => setOptions s args
    | "shift" :: args => shift setting s line args
    | "read" :: args => readInto s args
    | "break" :: _ => { s with ending := some (.left false) }
    | "continue" :: _ => { s with ending := some (.left true) }
    | "cd" :: _ => { s with status := 0 }
    | "trap" :: _ => { s with status := 0 }
    | "wait" :: _ => { s with status := 0 }
    | "unset" :: names => { names.foldl (fun s n => s.bind n "") s with status := 0 }
    | "export" :: args =>
      let s := args.foldl (fun s a =>
        let name := a.toList.takeWhile (· != '=')
        if name.length < a.length then
          s.bind (String.ofList name) (String.ofList (a.toList.drop (name.length + 1)))
        else s) s
      { s with status := 0 }
    | name :: args => runProgram setting s line name args

/-- The state after a command that consists of words.  The redirections of {lit}`exec` without a
program stay in force. -/
def runWords (fuel : Nat) (setting : Setting) (s : State) (line : Nat) (words : List Word)
    (rs : List Redirection) : State :=
  match fuel with
  | 0 => exhausted s
  | fuel + 1 =>
    let (as, words) := assignments words
    let (s, fields) := expand fuel setting s words
    let s := if words.isEmpty then assign fuel setting s as else s
    let given := words.any holdsOutput || as.any fun a => holdsOutput a.2
    match redirect fuel setting s rs with
    | .error reason => s.complain setting line 2 reason
    | .ok inner =>
      if fields = ["exec"] then adopted s inner rs
      else restored s (runFields fuel setting inner line (if given then s.status else 0) fields) rs

/-- The state after a command under some control. -/
def runControlled (fuel : Nat) (setting : Setting) (s : State) (c : Command) : State :=
  match fuel with
  | 0 => exhausted s
  | fuel + 1 =>
    match c with
    | .simple line words => runWords fuel setting s line words []
    | .group body => runSteps fuel setting s body
    | .subshell body => s.around (runSteps fuel setting s body)
    | .branch test yes no =>
      let t := { runSteps fuel setting { s with guarded := true } test with guarded := s.guarded }
      if t.ending.isSome then t
      else if t.status = 0 then runSteps fuel setting { t with status := 0 } yes
      else runSteps fuel setting { t with status := 0 } no
    | .loop goal test body => runLoop fuel setting s goal test body 0
    | .each name words body =>
      let (s, values) := expand fuel setting s words
      runEach fuel setting { s with status := 0 } name values body
    | .choice subject arms =>
      let (s, ps) := resolve fuel setting s subject
      runArms fuel setting s (bytesOf (String.ofList (textOf ps))) arms

/-- The state after a body has been repeated as long as a test ends as asked for; `last` is the
status of the body when it was last run. -/
def runLoop (fuel : Nat) (setting : Setting) (s : State) (goal : Bool) (test body : Script)
    (last : Nat) : State :=
  match fuel with
  | 0 => exhausted s
  | fuel + 1 =>
    let t := { runSteps fuel setting { s with guarded := true } test with guarded := s.guarded }
    if t.ending.isSome then t
    else if (t.status == 0) != goal then { t with status := last }
    else
      let b := runSteps fuel setting t body
      match b.ending with
      | none => runLoop fuel setting b goal test body b.status
      | some (.left true) => runLoop fuel setting { b with ending := none } goal test body b.status
      | some (.left false) => { b with ending := none, status := 0 }
      | some _ => b

/-- The state after a body has been run for each of some values. -/
def runEach (fuel : Nat) (setting : Setting) (s : State) (name : String) (values : List String)
    (body : Script) : State :=
  match fuel with
  | 0 => exhausted s
  | fuel + 1 =>
    match values with
    | [] => s
    | v :: vs =>
      let b := runSteps fuel setting (s.bind name v) body
      match b.ending with
      | none => runEach fuel setting b name vs body
      | some (.left true) => runEach fuel setting { b with ending := none } name vs body
      | some (.left false) => { b with ending := none, status := 0 }
      | some _ => b

/-- The state after the body of the first pattern that a text matches. -/
def runArms (fuel : Nat) (setting : Setting) (s : State) (subject : List UInt8)
    (arms : List (List Word × Script)) : State :=
  match fuel with
  | 0 => exhausted s
  | fuel + 1 =>
    match arms with
    | [] => { s with status := 0 }
    | (ps, body) :: rest =>
      let (s, found) := ps.foldl (fun (acc : State × Bool) p =>
        if acc.2 then acc
        else
          let (s, parts) := resolve fuel setting acc.1 p
          (s, (matchItems (wordItems (patternOf parts)) subject).isSome)) (s, false)
      if found then runSteps fuel setting { s with status := 0 } body
      else runArms fuel setting s subject rest

/-- The state after a command with its redirections. -/
def runStage (fuel : Nat) (setting : Setting) (s : State) (stage : Stage Command) : State :=
  match fuel with
  | 0 => exhausted s
  | fuel + 1 =>
    match stage.command with
    | .simple line words => runWords fuel setting s line words stage.redirections
    | c =>
      match redirect fuel setting s stage.redirections with
      | .error reason => s.complain setting 1 2 reason
      | .ok inner => restored s (runControlled fuel setting inner c) stage.redirections

/-- The state after commands each of which reads what the one before it writes, given what the first
one reads.  What ends one of them does not end the script. -/
def runStages (fuel : Nat) (setting : Setting) (s : State) (input : Source)
    (stages : List (Stage Command)) : State :=
  match fuel with
  | 0 => exhausted s
  | fuel + 1 =>
    match stages with
    | [] => s
    | [c] =>
      let inner := runStage fuel setting { s with stdin := input } c
      { s.around inner with stdin := s.stdin }
    | c :: cs =>
      let sinks := { s.sinks with one := .output }
      let inner := runStage fuel setting { s with stdin := input, output := [], sinks } c
      let s := { s with complaint := inner.complaint, files := inner.files }
      runStages fuel setting s (some inner.written) cs

/-- The state after a pipeline.  Only its first command reads what the script reads. -/
def runPipeline (fuel : Nat) (setting : Setting) (s : State) (stages : List (Stage Command)) :
    State :=
  match fuel with
  | 0 => exhausted s
  | fuel + 1 =>
    match stages with
    | [c] => runStage fuel setting s c
    | [] => s
    | c :: cs =>
      let sinks := { s.sinks with one := .output }
      let inner := runStage fuel setting { s with output := [], sinks } c
      let s :=
        { s with stdin := inner.stdin, complaint := inner.complaint, files := inner.files }
      runStages fuel setting s (some inner.written) cs

/-- The state after pipelines. -/
def runSteps (fuel : Nat) (setting : Setting) (s : State) (script : Script) : State :=
  match fuel with
  | 0 => exhausted s
  | fuel + 1 =>
    match script with
    | [] => s
    | step :: rest =>
      if s.ending.isSome then s
      else if step.condition.holds s && step.detached then
        let aside := s.around (runPipeline fuel setting { s with stdin := some [] } step.stages)
        runSteps fuel setting { aside with stdin := s.stdin, status := 0 } rest
      else if step.condition.holds s then
        let inside := { s with guarded := s.guarded || step.negated }
        let after := { runPipeline fuel setting inside step.stages with guarded := s.guarded }
        let after :=
          if step.negated then { after with status := if after.status = 0 then 1 else 0 } else after
        let excused := step.negated || rest.head?.any (·.condition != .always)
        runSteps fuel setting (ended after excused) rest
      else runSteps fuel setting s rest

/-- The state after the lines of a text, as far as they can be read. -/
def runText (fuel : Nat) (setting : Setting) (s : State) (text : List Char) : State :=
  match fuel with
  | 0 => exhausted s
  | fuel + 1 =>
    let (scripts, fault) := readLines text
    let s := scripts.foldl (fun s script =>
      if s.ending.isSome then s else runSteps fuel setting s script) s
    match fault with
    | none => s
    | some f =>
      if s.ending.isSome then s
      else { s.complain setting f.line 2 f.message with ending := some (.exited 2) }

end

/-- How many steps a script may take. -/
def stepLimit : Nat := 1000000

/-- What a script does with its input. -/
def runScript (setting : Setting) (arguments : List String) (text : List Char)
    (input : List UInt8) : Outcome :=
  (runText stepLimit setting (.start arguments (some input)) text).outcome

/-- An empty script succeeds, writes nothing and reads nothing. -/
theorem runScript_empty (setting : Setting) (arguments : List String) (input : List UInt8) :
    runScript setting arguments [] input = ⟨[], [], some 0, input.length⟩ := by
  have h : stepLimit = stepLimit - 1 + 1 := rfl
  rw [runScript, h, runText, readLines_nil]
  simp [State.start, State.outcome, State.written, State.lastStatus]

end HclQuery.Shell
