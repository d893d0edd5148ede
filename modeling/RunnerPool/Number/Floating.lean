import RunnerPool.Number.Shortest

/-! # Floating point numbers with infinities

All that a 64-bit floating point number can be, as text writes it and back.

* `Floating.parse? cs`   the number of a text: digits with an optional point and exponent, or a
  word for what is no finite number
* `Floating.shown x`     its shortest digits, without an exponent
* `Floating.toInt64 x`   the nearest 64-bit integer -/

namespace RunnerPool

/-- A finite number, an infinity, or none. -/
inductive Floating
  | finite (x : Binary64)
  | infinite (negative : Bool)
  | nan
deriving DecidableEq

namespace Floating

/-- Plain digits, without a point where there is no fraction. -/
def layout : Layout where
  maxPoint := none
  minPoint := none
  wholeEnding := []
  tie := .away

/-- The text of a number. -/
def shown : Floating → String
  | .finite x => String.ofList (layout.write x)
  | .infinite negative => if negative then "-inf" else "inf"
  | .nan => "NaN"

/-- The nearest integer, a half going away from zero, within 64 bits; zero for no number. -/
def toInt64 : Floating → Int
  | .finite x =>
    let n : Int := x.roundedAmount
    max Int64.minValue.toInt (min Int64.maxValue.toInt (if x.negative then -n else n))
  | .infinite negative => if negative then Int64.minValue.toInt else Int64.maxValue.toInt
  | .nan => 0

/-- A sign, and what remains. -/
def sign : List Char → Bool × List Char
  | '-' :: cs => (true, cs)
  | '+' :: cs => (false, cs)
  | cs => (false, cs)

/-- The exponent after its letter; nothing may follow it. -/
def exponent? (cs : List Char) : Option Int :=
  let (negative, ds) := sign cs
  if ds.isEmpty || !ds.all Char.isDigit then none
  else some (if negative then -(Digits.value ds : Int) else Digits.value ds)

/-- The nearest number to `digits · 10 ^ power`; a power far beyond the range is not computed. -/
def ofDecimal (negative : Bool) (digits : Nat) (power : Int) : Floating :=
  if digits = 0 then .finite (Binary64.zero negative)
  else
    let size := (Digits.ofNat digits).length + power
    -- far out of range either way, without computing the power
    if 400 < size then .infinite negative
    else if size < -400 then .finite (Binary64.zero negative)
    else
      match Binary64.ofDecimal negative digits power with
      | some x => .finite x
      | none => .infinite negative

/-- A number of digits with an optional point and exponent. -/
def digits? (negative : Bool) (cs : List Char) : Option Floating :=
  let whole := cs.takeWhile Char.isDigit
  let r := cs.dropWhile Char.isDigit
  let (fraction, r) :=
    match r with
    | '.' :: r => (r.takeWhile Char.isDigit, r.dropWhile Char.isDigit)
    | _ => ([], r)
  -- a point needs a digit on one side at least
  if whole.isEmpty && fraction.isEmpty then none
  else
    let build (e : Int) :=
      ofDecimal negative (Digits.value (whole ++ fraction)) (e - fraction.length)
    match r with
    | [] => some (build 0)
    | 'e' :: r | 'E' :: r => (exponent? r).map build
    | _ => none

/-- The number that a text is. -/
def parse? (cs : List Char) : Option Floating :=
  let (negative, r) := sign cs
  let word := String.ofList (r.map Char.toLower)
  if word = "nan" then some .nan
  else if word = "inf" ∨ word = "infinity" then some (.infinite negative)
  else digits? negative r

end Floating

/-- The integer that a text is: an optional sign and digits. -/
def parseInteger? (cs : List Char) : Option Int :=
  let (negative, ds) := Floating.sign cs
  if ds.isEmpty || !ds.all Char.isDigit then none
  else some (if negative then -(Digits.value ds : Int) else Digits.value ds)

/-- Whether an integer has 64 bits with a sign. -/
def isInt64 (n : Int) : Bool :=
  Int64.minValue.toInt ≤ n && n ≤ Int64.maxValue.toInt

/-- The integer of 64 bits that a text is. -/
def parseInt64? (cs : List Char) : Option Int :=
  (parseInteger? cs).filter isInt64

end RunnerPool
