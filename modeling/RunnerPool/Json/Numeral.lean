import RunnerPool.Json.Fault

/-! # Numbers as JSON writes them

A numeral is read in two steps: its parts by the grammar, then its amount.

* `Numeral.read cs`   the parts at the start of a text, and what remains of it
* `Numeral.value`     an integer if it has neither fraction nor exponent and fits 64 bits,
  otherwise a floating point number

The floating point amount is computed in steps that each round: the digits as far as they fit
64 bits, then one multiplication or division by a power of ten. -/

namespace RunnerPool.Json

/-- The parts of a number as it is written. -/
structure Numeral where
  negative : Bool
  /-- The digits before the point. -/
  whole : List Char
  /-- The digits after the point, none if there is no point. -/
  fraction : List Char
  /-- Sign and digits of the exponent. -/
  exponent : Option (Bool × List Char)
deriving Repr, DecidableEq

/-- Whether the character is a decimal digit. -/
def isDigit (c : Char) : Bool :=
  '0' ≤ c && c ≤ '9'

namespace Numeral

/-- A fault where a digit should stand.  A reader that skips the number does not tell the end of
    the text from a wrong character. -/
def noDigit (remaining : List Char) : Fault Flaw × Fault Flaw :=
  (.ahead (if remaining.isEmpty then .endInValue else .invalidNumber) remaining,
    .ahead .invalidNumber remaining)

/-- The exponent after its letter: an optional sign and at least one digit. -/
def readExponent (cs : List Char) :
    Except (Fault Flaw × Fault Flaw) ((Bool × List Char) × List Char) :=
  let (negative, cs) :=
    match cs with
    | '-' :: r => (true, r)
    | '+' :: r => (false, r)
    | _ => (false, cs)
  match cs.takeWhile isDigit with
  | [] => .error (noDigit cs)
  | ds => .ok ((negative, ds), cs.dropWhile isDigit)

/-- What follows the digits before the point. -/
def readTail (negative : Bool) (whole fraction cs : List Char) :
    Except (Fault Flaw × Fault Flaw) (Numeral × List Char) :=
  match cs with
  | 'e' :: r | 'E' :: r =>
    (readExponent r).map fun (e, rest) => (⟨negative, whole, fraction, some e⟩, rest)
  | _ => .ok (⟨negative, whole, fraction, none⟩, cs)

/-- The numeral without its sign. -/
def readUnsigned (negative : Bool) (cs : List Char) :
    Except (Fault Flaw × Fault Flaw) (Numeral × List Char) :=
  match cs.takeWhile isDigit, cs.dropWhile isDigit with
  | [], _ => .error (noDigit cs)
  | '0' :: _ :: _, _ =>
    let f := Fault.ahead Flaw.invalidNumber (cs.drop 1)
    .error (f, f)
  | whole, '.' :: r =>
    match r.takeWhile isDigit with
    | [] => .error (noDigit r)
    | fraction => readTail negative whole fraction (r.dropWhile isDigit)
  | whole, rest => readTail negative whole [] rest

/-- The numeral at the start of a text and what remains; or the fault as a reader of the number
    words it, and as one that skips it does. -/
def read (cs : List Char) : Except (Fault Flaw × Fault Flaw) (Numeral × List Char) :=
  match cs with
  | '-' :: r => readUnsigned true r
  | _ => readUnsigned false cs

/-! ### The amount -/

/-- As many digits as keep the number below the limit: the number and how many were taken. -/
def absorb (limit : Nat) : Nat → List Char → Nat × Nat
  | n, [] => (n, 0)
  | n, d :: ds =>
    if n * 10 + Digits.digitValue d < limit then
      let (m, k) := absorb limit (n * 10 + Digits.digitValue d) ds
      (m, k + 1)
    else (n, 0)

/-- The amount times a power of ten, rounded at each step; none if it is too large.  A power
    beyond the table is reached by dividing by the last of it first, which `steps` bounds: two
    such divisions leave zero of any 64-bit number. -/
def scale : (steps : Nat) → Binary64 → Int → Option Binary64
  | 0, x, _ => some x
  | steps + 1, x, power =>
    if power.natAbs ≤ 308 then do
      let t ← Binary64.tenTo power.natAbs
      if 0 ≤ power then x.mul t else x.div t
    else if x.isZero then some x
    else if 0 ≤ power then none
    else do
      let t ← Binary64.tenTo 308
      scale steps (← x.div t) (power + 308)

/-- What the exponent of a numeral stays below while its digits are read. -/
def exponentLimit : Nat := 2147483648

/-- The floating point amount, or how many digits of the exponent are left unread when the number
    is known to be out of range. -/
def float (n : Numeral) : Except Nat Binary64 :=
  let (s, taken) := absorb UInt64.size 0 n.whole
  let (s, fractionTaken) := absorb UInt64.size s n.fraction
  -- each digit of the whole part that was not taken is a factor of ten
  let power : Int := ((n.whole.length - taken : Nat) : Int) - fractionTaken
  let finish (power : Int) : Except Nat Binary64 :=
    match (Binary64.ofNat? s).bind (scale 4 · power) with
    | some x => .ok (x.withSign n.negative)
    | none => .error 0
  match n.exponent with
  | none => finish power
  | some (negative, ds) =>
    let (e, read) := absorb exponentLimit 0 ds
    if read < ds.length then
      -- so large an exponent puts a number out of range, unless the number is zero or the
      -- exponent negative
      if s ≠ 0 ∧ negative = false then .error (ds.length - (read + 1))
      else .ok (Binary64.zero n.negative)
    else finish (if negative then power - e else power + e)

/-- The number that a numeral stands for: an integer if it is one of 64 bits, without a sign or
    with one; minus zero is no integer. -/
def value (n : Numeral) : Except Nat Number :=
  let amount := Digits.value n.whole
  -- a numeral with a point or an exponent is no integer, whatever it amounts to
  if n.fraction.isEmpty && n.exponent.isNone &&
      (if n.negative then 0 < amount && Int64.minValue.toInt ≤ -(amount : Int)
        else amount < UInt64.size) then
    .ok (.int (if n.negative then -(amount : Int) else amount))
  else n.float.map .float

end Numeral

end RunnerPool.Json
