/-!
# Text: UTF-8

Bytes are read one at a time by a small machine that is either between characters or inside one, and
then knows how many continuation bytes are due and in which range the next one has to lie.  A byte
out of range ends the character as malformed and is read again as the first byte of the next.

Main definitions:

- {lit}`Utf8.pieces`: the characters and the malformed stretches of a byte sequence, in order.
- {lit}`Utf8.decode`: the characters, or the first fault.
- {lit}`Utf8.lossy`: the characters, with U+FFFD for each malformed stretch.
- {lit}`Utf8.encode`: the bytes of a text.
-/

namespace HclQuery.Text.Utf8

/-- A stretch of bytes: a character, or bytes that are no part of one. -/
inductive Piece where
  /-- A well-formed character. -/
  | char (c : Char)
  /-- The first `length` bytes of a character that goes on with the wrong byte. -/
  | malformed (length : Nat)
  /-- The first `length` bytes of a character that the input ends in. -/
  | truncated (length : Nat)
  deriving DecidableEq, Repr

/-- Where the machine stands. -/
inductive State where
  /-- Between two characters. -/
  | between
  /-- Inside a character of which `seen` bytes with the bits `bits` are read and `due` more must
  follow, the next one between `low` and `high`. -/
  | inside (bits seen due low high : Nat)
  deriving DecidableEq, Repr

/-- The effect of a byte that stands first in a character. -/
def start (b : UInt8) : List Piece × State :=
  let n := b.toNat
  if n < 0x80 then ([.char (Char.ofNat n)], .between)
  else if n < 0xc2 then ([.malformed 1], .between)
  else if n < 0xe0 then ([], .inside (n - 0xc0) 1 1 0x80 0xbf)
  else if n = 0xe0 then ([], .inside 0 1 2 0xa0 0xbf)
  else if n = 0xed then ([], .inside 0xd 1 2 0x80 0x9f)
  else if n < 0xf0 then ([], .inside (n - 0xe0) 1 2 0x80 0xbf)
  else if n = 0xf0 then ([], .inside 0 1 3 0x90 0xbf)
  else if n < 0xf4 then ([], .inside (n - 0xf0) 1 3 0x80 0xbf)
  else if n = 0xf4 then ([], .inside 4 1 3 0x80 0x8f)
  else ([.malformed 1], .between)

/-- The effect of one byte. -/
def step (s : State) (b : UInt8) : List Piece × State :=
  match s with
  | .between => start b
  | .inside bits seen due low high =>
    let n := b.toNat
    if low ≤ n && n ≤ high then
      let bits := bits * 64 + (n - 0x80)
      if due = 1 then ([.char (Char.ofNat bits)], .between)
      else ([], .inside bits (seen + 1) (due - 1) 0x80 0xbf)
    else
      let (pieces, next) := start b
      (.malformed seen :: pieces, next)

/-- The pieces read from a state on. -/
def piecesFrom (s : State) : List UInt8 → List Piece
  | [] =>
    match s with
    | .between => []
    | .inside _ seen _ _ _ => [.truncated seen]
  | b :: bytes =>
    let (pieces, next) := step s b
    pieces ++ piecesFrom next bytes

/-- The characters and the malformed stretches of a byte sequence, in order. -/
def pieces (bytes : List UInt8) : List Piece :=
  piecesFrom .between bytes

/-- The first place where bytes are no characters. -/
structure Fault where
  /-- How many bytes before it are well formed. -/
  index : Nat
  /-- The bytes that are malformed; none if the input ends inside a character. -/
  length : Option Nat
  deriving DecidableEq, Repr

/-- The wording of a fault. -/
def Fault.message (f : Fault) : String :=
  match f.length with
  | some n => s!"invalid utf-8 sequence of {n} bytes from index {f.index}"
  | none => s!"incomplete utf-8 byte sequence from index {f.index}"

/-- The characters of the pieces, or the first fault, with `index` bytes before them. -/
def collect (index : Nat) : List Piece → Except Fault (List Char)
  | [] => .ok []
  | .char c :: ps =>
    match collect (index + c.utf8Size) ps with
    | .ok cs => .ok (c :: cs)
    | .error f => .error f
  | .malformed n :: _ => .error ⟨index, some n⟩
  | .truncated _ :: _ => .error ⟨index, none⟩

/-- The characters of a byte sequence, or its first fault. -/
def decode (bytes : List UInt8) : Except Fault (List Char) :=
  collect 0 (pieces bytes)

/-- The characters of a byte sequence, with U+FFFD for each malformed stretch. -/
def lossy (bytes : List UInt8) : List Char :=
  (pieces bytes).map fun
    | .char c => c
    | _ => '\ufffd'

/-- The bytes of a text. -/
def encode (t : List Char) : List UInt8 :=
  t.flatMap String.utf8EncodeChar

end HclQuery.Text.Utf8
