import RunnerPool.Number.Binary64
import RunnerPool.Number.Digits

/-! # The shortest decimal that reads back

A finite number is shown with the fewest significant digits from which the nearest-number rule
gives it back; among those with that many digits, with the nearest.

* `Shortest.of x`   digits and the power of ten of the last one
* `Layout.write`    digits placed around a point, by the decisions that a format makes -/

namespace RunnerPool

/-- `digits · 10 ^ power`. -/
structure Decimal where
  digits : Nat
  power : Int
deriving Repr, DecidableEq

/-- Which of two equally near digits is taken. -/
inductive Tie
  | toEven
  /-- The one that is farther from zero. -/
  | away
deriving Repr, DecidableEq

namespace Shortest

/-- The power of ten of the leading digit of `num / den`, which is not zero. -/
def magnitude (num den : Nat) : Int :=
  -- 1233 / 4096 is a little less than the decimal logarithm of two
  let guess : Int := ((Nat.log2 num : Int) - Nat.log2 den) * 1233 / 4096
  let atLeast (k : Int) : Bool :=
    if 0 ≤ k then den * Nat.pow 10 k.toNat ≤ num else den ≤ num * Nat.pow 10 (-k).toNat
  if atLeast (guess + 1) then guess + 1
  else if atLeast guess then guess
  else guess - 1

/-- The two neighbours of `num / den` on the grid of multiples of `10 ^ power`, the nearer first. -/
def neighbours (tie : Tie) (num den : Nat) (power : Int) : List Nat :=
  let (n, d) := if 0 ≤ power then (num, den * Nat.pow 10 power.toNat)
    else (num * Nat.pow 10 (-power).toNat, den)
  let q := n / d
  let r := 2 * (n % d)
  if r = 0 then [q]
  else if r < d ∨ (r = d ∧ tie = .toEven ∧ q % 2 = 0) then [q, q + 1] else [q + 1, q]

/-- The first neighbour on the grid with `count` digits that reads back. -/
def onGrid (tie : Tie) (x : Binary64) (count : Nat) : Option Decimal :=
  let (num, den) := x.ratio
  let power := magnitude num den - (count - 1 : Nat)
  ((neighbours tie num den power).find? fun d =>
    Binary64.ofDecimal x.negative d power == some x).map (⟨·, power⟩)

/-- The digits of the number; seventeen always suffice. -/
def of (tie : Tie) (x : Binary64) : Decimal :=
  if x.isZero then ⟨0, 0⟩
  else ((List.range 17).findSome? fun k => onGrid tie x (k + 1)).getD ⟨0, 0⟩

end Shortest

/-- Without the zeros at the end; the power makes up for them. -/
def Decimal.stripZeros : Nat → Decimal → Decimal
  | 0, d => d
  | fuel + 1, d =>
    if d.digits ≠ 0 ∧ d.digits % 10 = 0 then stripZeros fuel ⟨d.digits / 10, d.power + 1⟩ else d

/-- The decisions of a format that places digits around a point. -/
structure Layout where
  /-- Positional if the point falls at most this many places right of the digits' start … -/
  maxPoint : Option Int
  /-- … and at least this many (a negative number: places left of it). -/
  minPoint : Option Int
  /-- What follows an integer. -/
  wholeEnding : List Char
  tie : Tie
deriving Repr

namespace Layout

/-- The exponent of scientific notation, its sign always written. -/
def exponent (e : Int) : List Char :=
  'e' :: (if e < 0 then '-' else '+') :: Digits.ofNat e.natAbs

/-- The digits with the point after the first `point` of them. -/
def positional (l : Layout) (digits : List Char) (point : Int) : List Char :=
  if point ≤ 0 then '0' :: '.' :: (List.replicate (-point).toNat '0' ++ digits)
  else if digits.length ≤ point.toNat then
    digits ++ (List.replicate (point.toNat - digits.length) '0' ++ l.wholeEnding)
  else digits.take point.toNat ++ '.' :: digits.drop point.toNat

/-- One digit before the point, and an exponent. -/
def scientific (digits : List Char) (point : Int) : List Char :=
  match digits with
  | [] => []
  | [d] => d :: exponent (point - 1)
  | d :: ds => d :: '.' :: (ds ++ exponent (point - 1))

/-- The text of a number in this layout. -/
def write (l : Layout) (x : Binary64) : List Char :=
  let amount :=
    if x.isZero then '0' :: l.wholeEnding
    else
      let d := (Shortest.of l.tie x).stripZeros 17
      let digits := Digits.ofNat d.digits
      let point := digits.length + d.power
      if l.maxPoint.all (point ≤ ·) && l.minPoint.all (· ≤ point) then positional l digits point
      else scientific digits point
  if x.negative then '-' :: amount else amount

end Layout

end RunnerPool
