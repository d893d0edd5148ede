/-! # UTF-8

Characters and their bytes, with a reader that never fails: malformed bytes become pieces of
their own, so one pass serves both the strict and the forgiving reading.

* `encode cs`      the bytes of a text
* `pieces bytes`   characters, malformed runs and a torn last character, in order
* `decode bytes`   the text, or where and how the bytes first cease to be one
* `repair bytes`   the text with a replacement character for each malformed run -/

namespace RunnerPool.Utf8

/-- The number of bytes that a text takes. -/
def size : List Char → Nat
  | [] => 0
  | c :: cs => c.utf8Size + size cs

/-- The bytes of a text. -/
def encode (cs : List Char) : List UInt8 :=
  cs.flatMap String.utf8EncodeChar

/-- A character whose first bytes have been read. -/
structure Torn where
  /-- How many bytes are still to come, at least one. -/
  need : Nat
  /-- The next byte lies between these two. -/
  low : Nat
  high : Nat
  /-- The bits read so far. -/
  bits : Nat
  /-- How many bytes were read so far. -/
  taken : Nat
deriving Repr, DecidableEq

/-- What a run of bytes turned out to be. -/
inductive Piece
  | char (c : Char)
  /-- The longest run that begins a character and can never become one, or one byte that begins
      none. -/
  | malformed (length : Nat)
  /-- The bytes ended inside a character. -/
  | torn (length : Nat)
deriving Repr, DecidableEq

/-- What a first byte announces: an ASCII character, the rest of a longer one, or nothing. The
    range of the second byte excludes overlong forms, surrogates and code points that are too
    large. -/
def begin (b : Nat) : List Piece × Option Torn :=
  if b < 0x80 then ([.char (Char.ofNat b)], none)
  else if b < 0xc2 then ([.malformed 1], none)
  else if b < 0xe0 then ([], some ⟨1, 0x80, 0xbf, b - 0xc0, 1⟩)
  else if b = 0xe0 then ([], some ⟨2, 0xa0, 0xbf, 0, 1⟩)
  else if b = 0xed then ([], some ⟨2, 0x80, 0x9f, 0xd, 1⟩)
  else if b < 0xf0 then ([], some ⟨2, 0x80, 0xbf, b - 0xe0, 1⟩)
  else if b = 0xf0 then ([], some ⟨3, 0x90, 0xbf, 0, 1⟩)
  else if b < 0xf4 then ([], some ⟨3, 0x80, 0xbf, b - 0xf0, 1⟩)
  else if b = 0xf4 then ([], some ⟨3, 0x80, 0x8f, 4, 1⟩)
  else ([.malformed 1], none)

/-- One more byte: it completes or continues the character in hand, or ends it as malformed and
    begins anew. -/
def step (hand : Option Torn) (b : Nat) : List Piece × Option Torn :=
  match hand with
  | none => begin b
  | some t =>
    if t.low ≤ b ∧ b ≤ t.high then
      let bits := t.bits * 64 + (b - 0x80)
      if t.need ≤ 1 then ([.char (Char.ofNat bits)], none)
      else ([], some ⟨t.need - 1, 0x80, 0xbf, bits, t.taken + 1⟩)
    else
      -- the byte is not lost: it begins the next piece
      let (ps, next) := begin b
      (.malformed t.taken :: ps, next)

/-- The pieces of the bytes, given the character in hand. -/
def piecesFrom : Option Torn → List UInt8 → List Piece
  | none, [] => []
  | some t, [] => [.torn t.taken]
  | hand, b :: bs => (step hand b.toNat).1 ++ piecesFrom (step hand b.toNat).2 bs

/-- The bytes as characters, malformed runs and a torn end. -/
def pieces (bytes : List UInt8) : List Piece :=
  piecesFrom none bytes

/-- Why bytes are not the UTF-8 form of a text; the index counts the good bytes before. -/
inductive Fault
  | invalid (length index : Nat)
  | incomplete (index : Nat)
deriving Repr, DecidableEq

/-- The wording of a fault. -/
def Fault.message : Fault → String
  | .invalid n i =>
    "invalid utf-8 sequence of " ++ toString n ++ " bytes from index " ++ toString i
  | .incomplete i => "incomplete utf-8 byte sequence from index " ++ toString i

/-- The characters of the pieces, or the first fault; `index` counts the bytes before. -/
def charsOf : Nat → List Piece → Except Fault (List Char)
  | _, [] => .ok []
  | index, .char c :: ps => (charsOf (index + c.utf8Size) ps).map (c :: ·)
  | index, .malformed n :: _ => .error (.invalid n index)
  | index, .torn _ :: _ => .error (.incomplete index)

/-- The text that the bytes stand for. -/
def decode (bytes : List UInt8) : Except Fault (List Char) :=
  charsOf 0 (pieces bytes)

/-- The replacement character. -/
def replacement : Char := '\ufffd'

/-- The text of the bytes, with the replacement character for whatever is malformed. -/
def repair (bytes : List UInt8) : List Char :=
  (pieces bytes).map fun
    | .char c => c
    | _ => replacement

end RunnerPool.Utf8
