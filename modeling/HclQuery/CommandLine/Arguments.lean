import HclQuery.Input

/-!
# Command line: arguments

Arguments are options, with or without values, and operands.  Short options may be written together,
a value may be attached to its option, and everything after two dashes is an operand.

Main definitions:

- {lit}`OptionSpec`: an option that may be given.
- {lit}`Matches.read`: the options and operands of arguments.
- {lit}`Request.ofArguments`: what arguments ask for.

Main results:

- Theorem {lit}`Matches.read_dashes`: after two dashes every argument is an operand.
-/

namespace HclQuery.CommandLine

/-! ## Options -/

/-- What an option is for. -/
inductive OptionKind where
  | flag
  /-- A value, which may be empty unless it is a path, and may look like an option if that is
  allowed. -/
  | value (path hyphens : Bool)
  | version
  | help
  deriving DecidableEq, Repr

/-- An option that may be given. -/
structure OptionSpec where
  long : String
  short : Option Char
  kind : OptionKind
  repeatable : Bool
  deriving DecidableEq, Repr

/-- Why reading arguments ends early. -/
inductive Stop where
  /-- The arguments are not understood. -/
  | usage
  /-- The version is asked for. -/
  | version
  /-- Help is asked for. -/
  | help
  deriving DecidableEq, Repr

/-- The options and operands of arguments. -/
structure Matches where
  /-- The long names of options with their values, in order. -/
  options : List (String × String)
  operands : List String
  deriving DecidableEq, Repr

namespace Matches

/-- Nothing is given. -/
def empty : Matches := ⟨[], []⟩

/-- Whether an option is given. -/
def has (m : Matches) (name : String) : Bool :=
  m.options.any fun o => o.1 == name

/-- The values of an option, in order. -/
def values (m : Matches) (name : String) : List String :=
  (m.options.filter fun o => o.1 == name).map (·.2)

/-- The value of an option, if it is given. -/
def value? (m : Matches) (name : String) : Option String :=
  (m.values name).head?

/-- The matches with one more option. -/
def add (m : Matches) (spec : OptionSpec) (value : String) : Except Stop Matches :=
  match spec.kind with
  | .version => .error .version
  | .help => .error .help
  | kind =>
    if m.has spec.long && !spec.repeatable then .error .usage
    else if value.isEmpty && kind == .value true false then .error .usage
    else .ok { m with options := m.options ++ [(spec.long, value)] }

/-- Whether an argument looks like an option. -/
def looksLikeOption (arg : String) : Bool :=
  match arg.toList with
  | '-' :: _ :: _ => true
  | _ => false

/-- Whether an argument may be the value of an option that stands before it. -/
def OptionSpec.accepts (spec : OptionSpec) (arg : String) : Bool :=
  match spec.kind with
  | .value _ hyphens => hyphens || !looksLikeOption arg
  | _ => false

/-- An option takes a value. -/
def OptionSpec.takesValue (spec : OptionSpec) : Bool :=
  match spec.kind with
  | .value .. => true
  | _ => false

/-- The matches after an option by its long name, and the option if its value is still to come. -/
def long (specs : List OptionSpec) (m : Matches) (text : List Char) :
    Except Stop (Matches × Option OptionSpec) :=
  let name := String.ofList (text.takeWhile (· != '='))
  match specs.find? fun s => s.long == name with
  | none => .error .usage
  | some spec =>
    match text.dropWhile (· != '=') with
    | [] =>
      if OptionSpec.takesValue spec then .ok (m, some spec)
      else (m.add spec "").map fun m => (m, none)
    | _ :: value =>
      if OptionSpec.takesValue spec then
        (m.add spec (String.ofList value)).map fun m => (m, none)
      else .error .usage

/-- The value attached to a short option; an equals sign may stand before it. -/
def attached (text : List Char) : String :=
  match text with
  | '=' :: value => String.ofList value
  | value => String.ofList value

/-- The matches after short options written together, and the last one if its value is still to
come. -/
def cluster (specs : List OptionSpec) (m : Matches) :
    List Char → Except Stop (Matches × Option OptionSpec)
  | [] => .ok (m, none)
  | c :: rest =>
    match specs.find? fun s => s.short == some c with
    | none => .error .usage
    | some spec =>
      if OptionSpec.takesValue spec then
        if rest.isEmpty then .ok (m, some spec)
        else (m.add spec (attached rest)).map fun m => (m, none)
      else
        match m.add spec "" with
        | .error s => .error s
        | .ok m => cluster specs m rest

/-- The matches after an argument that looks like an option, and that option if its value is still
to come. -/
def option (specs : List OptionSpec) (m : Matches) (arg : String) :
    Except Stop (Matches × Option OptionSpec) :=
  match arg.toList with
  | '-' :: '-' :: text => long specs m text
  | _ :: text => cluster specs m text
  | [] => .error .usage

/-- The matches with one more operand, which is not empty if it is a path. -/
def operand (paths : Nat → Bool) (m : Matches) (arg : String) : Except Stop Matches :=
  if arg.isEmpty && paths m.operands.length then .error .usage
  else .ok { m with operands := m.operands ++ [arg] }

/-- The matches with operands. -/
def operandAll (paths : Nat → Bool) (m : Matches) : List String → Except Stop Matches
  | [] => .ok m
  | arg :: args =>
    match m.operand paths arg with
    | .error s => .error s
    | .ok m => operandAll paths m args

/-- The options and operands of arguments, after an option that waits for its value. -/
def readFrom (specs : List OptionSpec) (paths : Nat → Bool) (pending : Option OptionSpec)
    (m : Matches) : List String → Except Stop Matches
  | [] => if pending.isSome then .error .usage else .ok m
  | arg :: args =>
    match pending with
    | some spec =>
      if OptionSpec.accepts spec arg then
        match m.add spec arg with
        | .error s => .error s
        | .ok m => readFrom specs paths none m args
      else .error .usage
    | none =>
      if arg = "--" then operandAll paths m args
      else if looksLikeOption arg then
        match option specs m arg with
        | .error s => .error s
        | .ok (m, pending) => readFrom specs paths pending m args
      else
        match m.operand paths arg with
        | .error s => .error s
        | .ok m => readFrom specs paths none m args

/-- The options and operands of arguments; `paths` tells which operands are paths. -/
def read (specs : List OptionSpec) (paths : Nat → Bool) (args : List String) :
    Except Stop Matches :=
  readFrom specs paths none .empty args

/-- After two dashes every argument is an operand. -/
theorem read_dashes (specs : List OptionSpec) (paths : Nat → Bool) (args : List String) :
    read specs paths ("--" :: args) = operandAll paths .empty args := by
  simp [read, readFrom]

end Matches

/-! ## Requests -/

/-- A query with the settings given on the command line. -/
structure QueryRequest where
  expression : String
  files : List String
  strict : Bool
  program : Option String
  args : List String
  /-- The settings file. -/
  file : Option String
  deriving DecidableEq, Repr

/-- What a run is to do. -/
inductive Request where
  | query (r : QueryRequest)
  | toJson (files : List String) (pretty : Bool)
  | fromJson (files : List String)
  deriving DecidableEq, Repr

/-- The paths that a request reads input from. -/
def Request.files : Request → List String
  | query r => r.files
  | toJson files _ => files
  | fromJson files => files

/-- Whether a request reads standard input. -/
def Request.readsStdin (r : Request) : Bool :=
  (Input.sources r.files).contains Input.dash

/-- The option for a log. -/
def verbose : OptionSpec := ⟨"verbose", some 'v', .flag, false⟩

/-- The option for help. -/
def help : OptionSpec := ⟨"help", some 'h', .help, false⟩

/-- The option for the version. -/
def version : OptionSpec := ⟨"version", some 'V', .version, false⟩

/-- The options of queries. -/
def queryOptions : List OptionSpec := [
  verbose, help,
  ⟨"strict", none, .flag, false⟩,
  ⟨"jq", none, .value false false, false⟩,
  ⟨"jq-arg", none, .value false true, true⟩,
  ⟨"config", some 'c', .value true false, false⟩]

/-- The request of the arguments of a query. -/
def queryOf (args : List String) : Except Stop Request :=
  match Matches.read queryOptions (0 < ·) args with
  | .error s => .error s
  | .ok m =>
    match m.operands with
    | [] => .error .usage
    | expression :: files =>
      .ok (.query {
        expression, files
        strict := m.has "strict"
        program := m.value? "jq"
        args := m.values "jq-arg"
        file := m.value? "config" })

/-- The request of the arguments of a conversion to JSON. -/
def toJsonOf (args : List String) : Except Stop Request :=
  (Matches.read [verbose, help, ⟨"pretty", some 'p', .flag, false⟩] (fun _ => true) args).map
    fun m => .toJson m.operands (m.has "pretty")

/-- The request of the arguments of a conversion from JSON. -/
def fromJsonOf (args : List String) : Except Stop Request :=
  (Matches.read [verbose, help] (fun _ => true) args).map fun m => .fromJson m.operands

/-- The request of a command with its arguments. -/
def commandOf (name : String) (args : List String) : Except Stop Request :=
  match name with
  | "query" => queryOf args
  | "to-json" => toJsonOf args
  | "from-json" => fromJsonOf args
  | "help" => .error .help
  | _ => .error .usage

/-- The request of arguments, after some options. -/
def requestFrom (m : Matches) : List String → Except Stop Request
  | [] => .error .usage
  | arg :: args =>
    if Matches.looksLikeOption arg then
      if arg = "--" then .error .usage
      else
        match Matches.option [verbose, help, version] m arg with
        | .error s => .error s
        | .ok (m, _) => requestFrom m args
    else commandOf arg args

/-- What arguments ask for. -/
def Request.ofArguments (args : List String) : Except Stop Request :=
  requestFrom .empty args

end HclQuery.CommandLine
