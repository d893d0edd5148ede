import RunnerPool.Number.Digits

/-! # Socket addresses

An address of four bytes, or of eight groups of sixteen bits with a zone, and behind its last
colon the number of a socket there.

* `SocketAddress.parse? s`   the address of a text
* `SocketAddress.shown a`    its text: the first longest run of zero groups is left out -/

namespace RunnerPool

/-- A socket at an address of the internet. -/
inductive SocketAddress
  | v4 (a b c d : Nat) (socket : Nat)
  | v6 (groups : List Nat) (zone : Nat) (socket : Nat)
deriving Repr, DecidableEq

namespace SocketAddress

/-- The value of a digit in a base of at most sixteen, in either case. -/
def digit? (base : Nat) (c : Char) : Option Nat :=
  let n :=
    if '0' ≤ c ∧ c ≤ '9' then c.toNat - '0'.toNat
    else if 'a' ≤ c ∧ c ≤ 'z' then c.toNat - 'a'.toNat + 10
    else if 'A' ≤ c ∧ c ≤ 'Z' then c.toNat - 'A'.toNat + 10
    else base
  if n < base then some n else none

/-- The digits at the start of a text. -/
def digits (base : Nat) (cs : List Char) : List Nat × List Char :=
  ((cs.takeWhile fun c => (digit? base c).isSome).filterMap (digit? base),
    cs.dropWhile fun c => (digit? base c).isSome)

/-- The number that digits stand for. -/
def ofDigits (base : Nat) (ds : List Nat) : Nat :=
  ds.foldl (fun n d => n * base + d) 0

/-- A number of at least one digit below a limit. -/
def number (base limit : Nat) (cs : List Char) : Option (Nat × List Char) :=
  match digits base cs with
  | ([], _) => none
  | (ds, rest) => if ofDigits base ds < limit then some (ofDigits base ds, rest) else none

/-- One character. -/
def char (c : Char) : List Char → Option (Unit × List Char)
  | d :: rest => if d = c then some ((), rest) else none
  | [] => none

/-- A byte in base ten: at most three digits and no zero before others. -/
def byte (cs : List Char) : Option (Nat × List Char) :=
  let (ds, _) := digits 10 cs
  if 3 < ds.length ∨ (ds.head? = some 0 ∧ 1 < ds.length) then none else number 10 256 cs

/-- Four bytes between points. -/
def fourBytes (cs : List Char) : Option ((Nat × Nat × Nat × Nat) × List Char) := do
  let (a, cs) ← byte cs
  let (_, cs) ← char '.' cs
  let (b, cs) ← byte cs
  let (_, cs) ← char '.' cs
  let (c, cs) ← byte cs
  let (_, cs) ← char '.' cs
  let (d, cs) ← byte cs
  return ((a, b, c, d), cs)

/-- A colon and the number of a socket. -/
def socketNumber (cs : List Char) : Option (Nat × List Char) := do
  let (_, cs) ← char ':' cs
  number 10 UInt16.size cs

/-- A socket at an address of four bytes. -/
def readV4 (cs : List Char) : Option (SocketAddress × List Char) := do
  let ((a, b, c, d), cs) ← fourBytes cs
  let (p, cs) ← socketNumber cs
  return (.v4 a b c d p, cs)

/-- A group of at most four digits in base sixteen. -/
def group (cs : List Char) : Option (Nat × List Char) :=
  if 4 < (digits 16 cs).1.length then none else number 16 UInt16.size cs

/-- Something behind a colon, or without one at the very start. -/
def separated (first : Bool) (read : List Char → Option (α × List Char)) (cs : List Char) :
    Option (α × List Char) :=
  if first then read cs else (char ':' cs).bind fun (_, cs) => read cs

/-- Up to so many groups between colons; four bytes count as the last two.  Also whether four
    bytes were read. -/
def groups (first : Bool) : (room : Nat) → List Char → List Nat × Bool × List Char
  | 0, cs => ([], false, cs)
  | room + 1, cs =>
    match if 0 < room then separated first fourBytes cs else none with
    | some ((a, b, c, d), rest) => ([a * 256 + b, c * 256 + d], true, rest)
    | none =>
      match separated first group cs with
      | none => ([], false, cs)
      | some (g, rest) =>
        let (gs, isV4, rest) := groups false room rest
        (g :: gs, isV4, rest)

/-- Eight groups, of which two colons may stand for one or more that are zero. -/
def eightGroups (cs : List Char) : Option (List Nat × List Char) :=
  match groups true 8 cs with
  | (head, isV4, cs) =>
    if head.length = 8 then some (head, cs)
    else if isV4 then none
    else do
      let (_, cs) ← char ':' cs
      let (_, cs) ← char ':' cs
      let (tail, _, cs) := groups true (7 - head.length) cs
      return (head ++ List.replicate (8 - head.length - tail.length) 0 ++ tail, cs)

/-- A percent sign and the number of a zone. -/
def zone (cs : List Char) : Option (Nat × List Char) := do
  let (_, cs) ← char '%' cs
  number 10 UInt32.size cs

/-- A socket at an address of eight groups in brackets. -/
def readV6 (cs : List Char) : Option (SocketAddress × List Char) := do
  let (_, cs) ← char '[' cs
  let (gs, cs) ← eightGroups cs
  let (z, cs) := (zone cs).getD (0, cs)
  let (_, cs) ← char ']' cs
  let (p, cs) ← socketNumber cs
  return (.v6 gs z p, cs)

/-- The address that a text is. -/
def parse? (s : String) : Option SocketAddress :=
  match (readV4 s.toList).orElse fun _ => readV6 s.toList with
  | some (a, []) => some a
  | _ => none

/-! ### Writing -/

/-- Number text in base ten. -/
def decimal (n : Nat) : String := String.ofList (Digits.ofNat n)

/-- Groups in base sixteen between colons. -/
def groupsText (gs : List Nat) : String :=
  String.intercalate ":" (gs.map fun g => String.ofList (Nat.toDigits 16 g))

/-- How many zeros a list begins with. -/
def zerosAhead (gs : List Nat) : Nat :=
  (gs.takeWhile (· == 0)).length

/-- Where the first longest run of zeros begins, and its length; `start` groups come before. -/
def longestZeros : (start : Nat) → List Nat → Nat × Nat
  | start, [] => (start, 0)
  | start, g :: gs =>
    let here := zerosAhead (g :: gs)
    let later := longestZeros (start + 1) gs
    if later.2 ≤ here then (start, here) else later

/-- The text of eight groups. -/
def groupsShown (gs : List Nat) : String :=
  match gs with
  | [0, 0, 0, 0, 0, 0xffff, x, y] =>
    "::ffff:" ++ decimal (x / 256) ++ "." ++ decimal (x % 256) ++ "." ++
      decimal (y / 256) ++ "." ++ decimal (y % 256)
  | _ =>
    let (start, count) := longestZeros 0 gs
    if 1 < count then groupsText (gs.take start) ++ "::" ++ groupsText (gs.drop (start + count))
    else groupsText gs

/-- The text of an address. -/
def shown : SocketAddress → String
  | .v4 a b c d socket =>
    decimal a ++ "." ++ decimal b ++ "." ++ decimal c ++ "." ++ decimal d ++ ":" ++ decimal socket
  | .v6 gs zone socket =>
    "[" ++ groupsShown gs ++ (if zone = 0 then "" else "%" ++ decimal zone) ++ "]:" ++
      decimal socket

end SocketAddress

end RunnerPool
