import HclQuery.Disk.Basic
import HclQuery.Shell.Pattern

/-!
# Shell: programs

The programs that filter scripts are made of.  Each one reads standard input as far as it needs and
says what it writes, how it ends and what it leaves unread.

Main definitions:

- {lit}`Result`: what a program has done.
- {lit}`runTool`: what a program does.
-/

namespace HclQuery.Shell

/-- What is left of standard input; nothing at all if it has been closed. -/
abbrev Source := Option (List UInt8)

/-- What a program has done. -/
structure Result where
  output : List UInt8
  complaint : List UInt8
  status : Nat
  unread : Source

/-- The program has written something and succeeded. -/
def Result.wrote (output : List UInt8) (unread : Source) : Result :=
  ⟨output, [], 0, unread⟩

/-- The program has failed and said why. -/
def Result.failed (status : Nat) (message : String) (unread : Source) : Result :=
  ⟨[], bytesOf (message ++ "\n"), status, unread⟩

/-! ## Input -/

/-- The wording of a refusal, as programs give it. -/
def refusal : OsError → String
  | .notFound => "No such file or directory"
  | .permissionDenied => "Permission denied"
  | .notDirectory => "Not a directory"
  | .isDirectory => "Is a directory"
  | e => e.message

/-- The bytes of an operand, and what is left of standard input. -/
def operand (disk : Disk) (stdin : Source) (path : String) : Except String (List UInt8 × Source) :=
  if path = "-" then
    match stdin with
    | some bytes => .ok (bytes, some [])
    | none => .error "Bad file descriptor"
  else
    match disk.read path with
    | .ok bytes => .ok (bytes, stdin)
    | .error e => .error (refusal e)

/-- The operands of a program: standard input if there are none. -/
def operands (paths : List String) : List String :=
  if paths.isEmpty then ["-"] else paths

/-- The bytes of operands one after the other; those that cannot be read are complained about. -/
def concatenate (disk : Disk) (program : String) (stdin : Source) : List String → Result
  | [] => .wrote [] stdin
  | path :: paths =>
    match operand disk stdin path with
    | .ok (bytes, stdin) =>
      let r := concatenate disk program stdin paths
      { r with output := bytes ++ r.output }
    | .error reason =>
      let r := concatenate disk program stdin paths
      { r with
        complaint := bytesOf s!"{program}: {path}: {reason}\n" ++ r.complaint
        status := 1 }

/-- What a program makes of the bytes of its operand. -/
def filterBytes (disk : Disk) (program : String) (stdin : Source) (paths : List String)
    (f : List UInt8 → List UInt8) : Result :=
  let r := concatenate disk program stdin (operands paths)
  { r with output := f r.output }

/-! ## Parts of a text -/

/-- The lines of a text with their newlines, given the line that is being read in reverse. -/
def byteLines (line : List UInt8) : List UInt8 → List (List UInt8)
  | [] => if line.isEmpty then [] else [line.reverse]
  | b :: t =>
    if b = 0x0a then (b :: line).reverse :: byteLines [] t else byteLines (b :: line) t

/-- The number of words of a text. -/
def countWords (inWord : Bool) : List UInt8 → Nat
  | [] => 0
  | b :: t =>
    let blank := b == 0x20 || (0x09 ≤ b && b ≤ 0x0d)
    (if !blank && !inWord then 1 else 0) + countWords (!blank) t

/-- How much of a text is kept: bytes or lines. -/
inductive Amount where
  | bytes (n : Nat)
  | lines (n : Nat)

/-- The amount that arguments ask for, and the operands after it. -/
def amount? : List String → Option (Amount × List String)
  | "-c" :: n :: rest => n.toNat?.map fun n => (.bytes n, rest)
  | "-n" :: n :: rest => n.toNat?.map fun n => (.lines n, rest)
  | arg :: rest =>
    match arg.toList with
    | '-' :: 'c' :: n => (String.ofList n).toNat?.map fun n => (.bytes n, rest)
    | '-' :: 'n' :: n => (String.ofList n).toNat?.map fun n => (.lines n, rest)
    | '-' :: n => (String.ofList n).toNat?.map fun n => (.lines n, rest)
    | _ => some (.lines 10, arg :: rest)
  | [] => some (.lines 10, [])

/-- The front of a text. -/
def Amount.front (t : List UInt8) : Amount → List UInt8
  | bytes n => t.take n
  | lines n => ((byteLines [] t).take n).flatten

/-- The end of a text. -/
def Amount.back (t : List UInt8) : Amount → List UInt8
  | bytes n => t.drop (t.length - n)
  | lines n =>
    let ls := byteLines [] t
    (ls.drop (ls.length - n)).flatten

/-- The front of endless zeros. -/
def Amount.zeros : Amount → List UInt8
  | bytes n => List.replicate n 0
  | lines _ => []

/-- How many bytes are read at a time where only lines are asked for. -/
def blockSize : Nat := 8192

/-- How many bytes are read for the front of a text. -/
def Amount.taken (front : Nat) : Amount → Nat
  | bytes _ => front
  | lines _ => (front + blockSize - 1) / blockSize * blockSize

/-- What {lit}`head` does. -/
def head (disk : Disk) (args : List String) (stdin : Source) : Result :=
  match amount? args with
  | none => .failed 1 "head: invalid number" stdin
  | some (amount, ["/dev/zero"]) => .wrote amount.zeros stdin
  | some (amount, []) =>
    match stdin with
    | none => .failed 1 "head: error reading 'standard input': Bad file descriptor" stdin
    | some bytes =>
      let front := amount.front bytes
      .wrote front (some (bytes.drop (amount.taken front.length)))
  | some (amount, paths) => filterBytes disk "head" stdin paths amount.front

/-- What {lit}`tail` does. -/
def tail (disk : Disk) (args : List String) (stdin : Source) : Result :=
  match amount? args with
  | none => .failed 1 "tail: invalid number" stdin
  | some (amount, paths) => filterBytes disk "tail" stdin paths amount.back

/-- The text with blanks in front of it that make it as wide as asked for. -/
def padded (width : Nat) (s : String) : String :=
  String.ofList (List.replicate (width - s.length) ' ') ++ s

/-- What {lit}`wc` counts in a text, for the letters of its options. -/
def counts (letters : List Char) (t : List UInt8) : List Nat :=
  let wanted := if letters.isEmpty then ['l', 'w', 'c'] else letters
  ['l', 'w', 'm', 'c'].filterMap fun letter =>
    if !wanted.contains letter then none
    else if letter = 'l' then some (t.count 0x0a)
    else if letter = 'w' then some (countWords false t)
    else if letter = 'm' then some (t.filter fun b => b < 0x80 || 0xc0 ≤ b).length
    else some t.length

/-- What {lit}`wc` does. -/
def wordCount (disk : Disk) (args : List String) (stdin : Source) : Result :=
  let options := args.takeWhile fun a => a.startsWith "-" && a != "-"
  let letters := options.flatMap fun a => a.toList.drop 1
  let paths := args.drop options.length
  let r := concatenate disk "wc" stdin (operands paths)
  let numbers := counts letters r.output
  let width :=
    if numbers.length ≤ 1 then 1
    else if paths.isEmpty then 7
    else (toString r.output.length).length
  let line := " ".intercalate (numbers.map fun n => padded width s!"{n}")
  let name := (paths.head?.map fun p => " " ++ p).getD ""
  { r with output := if r.status = 0 then bytesOf s!"{line}{name}\n" else [] }

/-! ## Translation -/

/-- The bytes of a set with its ranges. -/
def expandSet : List UInt8 → List UInt8
  | [] => []
  | [b] => [b]
  | [b, c] => [b, c]
  | b :: c :: d :: t =>
    if c = 0x2d then
      ((List.range (d.toNat + 1 - b.toNat)).map fun i => UInt8.ofNat (b.toNat + i)) ++ expandSet t
    else b :: expandSet (c :: d :: t)

/-- The bytes of the named sets of letters and digits, or of any other set. -/
def setBytes (s : String) : List UInt8 :=
  if s = "[:upper:]" then expandSet (bytesOf "A-Z")
  else if s = "[:lower:]" then expandSet (bytesOf "a-z")
  else if s = "[:digit:]" then expandSet (bytesOf "0-9")
  else if s = "[:space:]" then [0x20, 0x09, 0x0a, 0x0b, 0x0c, 0x0d]
  else expandSet (unescape false s.toList)

/-- The byte that a set has in place of a byte of another set; the last one stands for all
others. -/
def translateByte (source target : List UInt8) (b : UInt8) : UInt8 :=
  match source.idxOf? b with
  | none => b
  | some i => (target[i]?).getD (target.getLast?.getD b)

/-- The text with only the first of equal bytes that follow one another, as far as they are of a
set. -/
def squeeze (set : List UInt8) : List UInt8 → List UInt8
  | [] => []
  | [b] => [b]
  | b :: c :: t =>
    if b = c ∧ set.contains b then squeeze set (c :: t) else b :: squeeze set (c :: t)

/-- The bytes that are not of a set. -/
def complement (set : List UInt8) : List UInt8 :=
  ((List.range 256).map UInt8.ofNat).filter fun b => !set.contains b

/-- What {lit}`tr` makes of a text, given the letters of its options and its sets. -/
def translated (options : List Char) (sets : List (List UInt8)) (t : List UInt8) :
    Option (List UInt8) :=
  let first (s : List UInt8) :=
    if options.contains 'c' || options.contains 'C' then complement s else s
  match sets with
  | [set] =>
    if options.contains 'd' then some (t.filter fun b => !(first set).contains b)
    else if options.contains 's' then some (squeeze (first set) t)
    else none
  | [source, target] =>
    if options.contains 'd' then
      some (squeeze target (t.filter fun b => !(first source).contains b))
    else
      let t := t.map (translateByte (first source) target)
      some (if options.contains 's' then squeeze target t else t)
  | _ => none

/-- What {lit}`tr` does. -/
def translate (args : List String) (stdin : Source) : Result :=
  let options := args.takeWhile fun a => a.startsWith "-" && a.length > 1
  let sets := (args.drop options.length).map setBytes
  match stdin with
  | none => .failed 1 "tr: read error: Bad file descriptor" stdin
  | some bytes =>
    match translated (options.flatMap fun a => a.toList.drop 1) sets bytes with
    | some t => .wrote t (some [])
    | none =>
      .failed 1 "tr: missing operand\nTry 'tr --help' for more information." stdin

/-! ## Lines -/

/-- A line with its text changed and its newline kept. -/
def onLine (f : List UInt8 → List UInt8) (line : List UInt8) : List UInt8 :=
  if line.getLast? = some 0x0a then f line.dropLast ++ [0x0a] else f line

/-- The text of a line without its newline. -/
def bareLine (line : List UInt8) : List UInt8 :=
  if line.getLast? = some 0x0a then line.dropLast else line

/-- The lines of a text, each of which gets a newline. -/
def wholeLines (ls : List (List UInt8)) : List UInt8 :=
  ls.flatMap (· ++ [0x0a])

/-- The scripts of {lit}`sed` and the operands after them. -/
def editScripts : List String → List String × List String
  | "-e" :: script :: rest =>
    let (scripts, paths) := editScripts rest
    (script :: scripts, paths)
  | args => ([], args)

/-- What {lit}`sed` does. -/
def edit (disk : Disk) (args : List String) (stdin : Source) : Result :=
  let (scripts, paths) :=
    match editScripts args, args with
    | ([], _), script :: paths => ([script], paths)
    | (scripts, paths), _ => (scripts, paths)
  let script := bytesOf ("\n".intercalate scripts)
  match Substitution.listOfBytes? (script.length + 1) script with
  | none => .failed 1 "sed: -e expression #1, char 1: unknown command" stdin
  | some ss =>
    filterBytes disk "sed" stdin paths fun t =>
      ((byteLines [] t).map (onLine fun line => ss.foldl (fun l s => s.apply l) line)).flatten

/-- The text with small letters in place of capital ones. -/
def lowered (t : List UInt8) : List UInt8 :=
  t.map fun b => if 0x41 ≤ b && b ≤ 0x5a then b + 0x20 else b

/-- What {lit}`grep` does. -/
def search (disk : Disk) (args : List String) (stdin : Source) : Result :=
  let options := args.takeWhile fun a => a.startsWith "-" && a.length > 1
  let letters := options.flatMap fun a => a.toList.drop 1
  match args.drop options.length with
  | [] =>
    let usage := "Usage: grep [OPTION]... PATTERNS [FILE]..."
    .failed 2 (usage ++ "\nTry 'grep --help' for more information.") stdin
  | pattern :: paths =>
    let fold := if letters.contains 'i' then lowered else id
    let bytes := fold (bytesOf pattern)
    let pattern? :=
      if letters.contains 'F' then some ⟨false, bytes.map fun b => .one (.byte b)⟩
      else Pattern.ofBytes? bytes
    match pattern? with
    | none => .failed 2 "grep: Unmatched [, [^, [:, [., or [=" stdin
    | some pattern =>
      let r := concatenate disk "grep" stdin (operands paths)
      let found := ((byteLines [] r.output).map bareLine).zipIdx.filter fun line =>
        pattern.occursIn (fold line.1) != letters.contains 'v'
      let shown := found.map fun line =>
        if letters.contains 'n' then bytesOf s!"{line.2 + 1}:" ++ line.1 else line.1
      let status := if r.status ≠ 0 then 2 else if found.isEmpty then 1 else 0
      let output :=
        if letters.contains 'q' then []
        else if letters.contains 'c' then bytesOf s!"{found.length}\n"
        else wholeLines shown
      { r with output, status }

/-- The order of lines by their bytes. -/
def lineLe : List UInt8 → List UInt8 → Bool
  | [], _ => true
  | _ :: _, [] => false
  | a :: s, b :: t => a < b || (a == b && lineLe s t)

/-- The lines without those that are equal to the one before them. -/
def distinct : List (List UInt8) → List (List UInt8)
  | [] => []
  | [l] => [l]
  | l :: m :: ls => if l = m then distinct (m :: ls) else l :: distinct (m :: ls)

/-- What {lit}`sort` does. -/
def sort (disk : Disk) (args : List String) (stdin : Source) : Result :=
  let options := args.takeWhile fun a => a.startsWith "-" && a.length > 1
  let letters := options.flatMap fun a => a.toList.drop 1
  filterBytes disk "sort" stdin (args.drop options.length) fun t =>
    let ls := ((byteLines [] t).map bareLine).mergeSort lineLe
    let ls := if letters.contains 'u' then distinct ls else ls
    wholeLines (if letters.contains 'r' then ls.reverse else ls)

/-- What {lit}`tee` does. -/
def duplicate (args : List String) (stdin : Source) : Result :=
  let bytes := stdin.getD []
  ⟨bytes, if args.contains "/dev/stderr" then bytes else [], 0, stdin.map fun _ => []⟩

/-- What {lit}`seq` writes. -/
def sequence (args : List String) : Option (List UInt8) :=
  let upTo (first step last : Int) : List UInt8 :=
    bytesOf (String.join ((List.range ((last - first) / step + 1).toNat).map fun (i : Nat) =>
      s!"{first + step * (i : Int)}\n"))
  match args.map String.toInt? with
  | [some last] => some (upTo 1 1 last)
  | [some first, some last] => some (upTo first 1 last)
  | [some first, some step, some last] => if 0 < step then some (upTo first step last) else none
  | _ => none

/-! ## Tests -/

/-- What {lit}`test` says about two operands. -/
def compare (operator a b : String) : Option Bool :=
  let numbers (f : Int → Int → Bool) : Option Bool :=
    match a.toInt?, b.toInt? with
    | some m, some n => some (f m n)
    | _, _ => none
  match operator with
  | "=" => some (a == b)
  | "!=" => some (a != b)
  | "-eq" => numbers fun m n => m == n
  | "-ne" => numbers fun m n => m != n
  | "-lt" => numbers fun m n => decide (m < n)
  | "-le" => numbers fun m n => decide (m ≤ n)
  | "-gt" => numbers fun m n => decide (n < m)
  | "-ge" => numbers fun m n => decide (n ≤ m)
  | _ => none

/-- What {lit}`test` says about one operand. -/
def examine (disk : Disk) (operator a : String) : Option Bool :=
  match operator with
  | "-n" => some (!a.isEmpty)
  | "-z" => some a.isEmpty
  | "-e" => some (disk.leads a)
  | "-r" => some (disk.openAt a).isOk
  | "-d" => some (match disk.find a with
    | .ok .directory => true
    | _ => false)
  | "-f" => some (match disk.find a with
    | .ok (.file _) => true
    | _ => false)
  | "-s" => some (match disk.find a with
    | .ok (.file content) => !content.isEmpty
    | _ => false)
  | _ => none

/-- What {lit}`test` says. -/
def decideTest (disk : Disk) : List String → Option Bool
  | [] => some false
  | "!" :: a :: rest => (decideTest disk (a :: rest)).map (!·)
  | [a] => some (!a.isEmpty)
  | [operator, a] => examine disk operator a
  | [a, operator, b] => compare operator a b
  | _ => none

/-! ## All programs -/

/-- What {lit}`echo` writes; the one of a shell reads escapes. -/
def echo (escapes : Bool) (args : List String) : List UInt8 :=
  let (args, finish) : List String × List UInt8 :=
    match args with
    | "-n" :: rest => (rest, [])
    | _ => (args, [0x0a])
  let text := " ".intercalate args
  (if escapes then unescape true text.toList else bytesOf text) ++ finish

/-- How many lines stand for endlessly many. -/
def endless : Nat := 131072

/-- The programs of the system, the shell itself apart. -/
def toolNames : List String :=
  ["cat", "echo", "printf", "head", "tail", "wc", "tr", "sed", "grep", "sort", "uniq", "tee", "seq",
    "yes", "true", "false", "sleep", "test", "["]

/-- The result of a test. -/
def Result.tested (answer : Option Bool) (complaint : String) (stdin : Source) : Result :=
  match answer with
  | some true => .wrote [] stdin
  | some false => ⟨[], [], 1, stdin⟩
  | none => .failed 2 complaint stdin

/-- What a program does, if it is one of those known here.  The programs of the shell itself say
where they stand in its script, in front of their complaints. -/
def runTool (disk : Disk) (place : Option String) (name : String) (args : List String)
    (stdin : Source) : Option Result :=
  let here := place.getD ""
  match name with
  | "cat" =>
    let r := concatenate disk "cat" stdin (operands args)
    let unclosable := stdin.isNone && (operands args).contains "-"
    let last := if unclosable then "cat: closing standard input: Bad file descriptor\n" else ""
    some { r with complaint := r.complaint ++ bytesOf last }
  | "echo" => some (.wrote (echo place.isSome args) stdin)
  | "printf" =>
    match args with
    | [] =>
      some (if place.isSome then .failed 2 (here ++ "printf: usage: printf format [arg ...]") stdin
        else
          .failed 1 "printf: missing operand\nTry 'printf --help' for more information." stdin)
    | format :: args => some (.wrote (formatted format args) stdin)
  | "head" => some (head disk args stdin)
  | "tail" => some (tail disk args stdin)
  | "wc" => some (wordCount disk args stdin)
  | "tr" => some (translate args stdin)
  | "sed" => some (edit disk args stdin)
  | "grep" => some (search disk args stdin)
  | "sort" => some (sort disk args stdin)
  | "uniq" =>
    some (filterBytes disk "uniq" stdin args fun t =>
      wholeLines (distinct ((byteLines [] t).map bareLine)))
  | "tee" => some (duplicate args stdin)
  | "seq" =>
    match sequence args with
    | some bytes => some (.wrote bytes stdin)
    | none => some (.failed 1 "seq: missing operand\nTry 'seq --help' for more information." stdin)
  | "yes" =>
    let line := bytesOf (" ".intercalate (if args.isEmpty then ["y"] else args) ++ "\n")
    some (.wrote (List.replicate endless line).flatten stdin)
  | "test" => some (.tested (decideTest disk args) s!"{here}test: unexpected operator" stdin)
  | "[" =>
    if args.getLast? = some "]" then
      some (.tested (decideTest disk args.dropLast) s!"{here}[: unexpected operator" stdin)
    else some (.failed 2 s!"{here}[: missing ]" stdin)
  | "true" => some (.wrote [] stdin)
  | ":" => some (.wrote [] stdin)
  | "sleep" => some (.wrote [] stdin)
  | "false" => some ⟨[], [], 1, stdin⟩
  | _ => none

end HclQuery.Shell
