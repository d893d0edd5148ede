/-! # Finite binary floating point numbers of 64 bits

A finite number is a sign and a multiple of a power of two, in the one form that the format
has for it.  The arithmetic is exact on integers with one rounding at the end, to the nearest
number and on a tie to the even one.

* `Binary64.ofRatio`     the nearest number to a quotient, none if it is too large
* `Binary64.ratio`       the number as a quotient of natural numbers, sign apart
* `Binary64.mul`, `div`  rounded product and quotient -/

namespace RunnerPool

/-- Whether `mantissa · 2 ^ exponent` is the stored form of a finite number: 53 bits, the
    leading one set unless the exponent is the least. -/
def Binary64.Stored (mantissa : Nat) (exponent : Int) : Prop :=
  mantissa < Nat.pow 2 53 ∧ -1074 ≤ exponent ∧ exponent ≤ 971 ∧
    (Nat.pow 2 52 ≤ mantissa ∨ exponent = -1074)

instance (m : Nat) (e : Int) : Decidable (Binary64.Stored m e) :=
  inferInstanceAs (Decidable (_ ∧ _ ∧ _ ∧ _))

/-- A finite number: `mantissa · 2 ^ exponent`, negated if so marked.  Zero has two signs. -/
structure Binary64 where
  negative : Bool
  mantissa : Nat
  exponent : Int
  stored : Binary64.Stored mantissa exponent
deriving DecidableEq

namespace Binary64

/-- Zero with a sign. -/
def zero (negative : Bool) : Binary64 :=
  ⟨negative, 0, -1074, by decide⟩

/-- Whether the number is zero of either sign. -/
def isZero (x : Binary64) : Bool :=
  x.mantissa == 0

/-- The same amount with the given sign. -/
def withSign (x : Binary64) (negative : Bool) : Binary64 :=
  { x with negative }

/-- Numerical equality: the two zeros are equal, and nothing else with two forms is. -/
protected def beq (x y : Binary64) : Bool :=
  (x.isZero && y.isZero) ||
    (x.negative == y.negative && x.mantissa == y.mantissa && x.exponent == y.exponent)

instance : BEq Binary64 := ⟨Binary64.beq⟩

/-- `num · 2 ^ (-e) / den` as a quotient of natural numbers. -/
def scaled (num den : Nat) (e : Int) : Nat × Nat :=
  if 0 ≤ e then (num, den * Nat.pow 2 e.toNat) else (num * Nat.pow 2 (-e).toNat, den)

/-- The quotient rounded to the nearest integer, a tie to the even one. -/
def roundHalfEven (num den : Nat) : Nat :=
  let q := num / den
  let r := 2 * (num % den)
  if den < r ∨ (r = den ∧ q % 2 = 1) then q + 1 else q

/-- The exponent at which `num / den` has 53 bits before the point, or the least one. -/
def exponentOf (num den : Nat) : Int :=
  let guess : Int := max ((Nat.log2 num : Int) - Nat.log2 den - 53) (-1074)
  let (n, d) := scaled num den guess
  if Nat.pow 2 53 ≤ n / d then guess + 1 else guess

/-- The number nearest to `num / den`, or none if that is beyond the largest. -/
def ofRatio (negative : Bool) (num den : Nat) : Option Binary64 :=
  if num = 0 then some (zero negative)
  else
    let e := exponentOf num den
    let (n, d) := scaled num den e
    let m := roundHalfEven n d
    -- rounding up may give one bit more
    let (m, e) := if m = Nat.pow 2 53 then (Nat.pow 2 52, e + 1) else (m, e)
    if h : Stored m e then some ⟨negative, m, e, h⟩ else none

/-- The number nearest to a natural number. -/
def ofNat? (n : Nat) : Option Binary64 :=
  ofRatio false n 1

/-- The amount of the number as a quotient. -/
def ratio (x : Binary64) : Nat × Nat :=
  if 0 ≤ x.exponent then (x.mantissa * Nat.pow 2 x.exponent.toNat, 1)
  else (x.mantissa, Nat.pow 2 (-x.exponent).toNat)

/-- The rounded product. -/
def mul (x y : Binary64) : Option Binary64 :=
  ofRatio (x.negative != y.negative) (x.ratio.1 * y.ratio.1) (x.ratio.2 * y.ratio.2)

/-- The rounded quotient by a number that is not zero. -/
def div (x y : Binary64) : Option Binary64 :=
  ofRatio (x.negative != y.negative) (x.ratio.1 * y.ratio.2) (x.ratio.2 * y.ratio.1)

/-- The number nearest to `digits · 10 ^ power`. -/
def ofDecimal (negative : Bool) (digits : Nat) (power : Int) : Option Binary64 :=
  if 0 ≤ power then ofRatio negative (digits * Nat.pow 10 power.toNat) 1
  else ofRatio negative digits (Nat.pow 10 (-power).toNat)

/-- The nearest power of ten. -/
def tenTo (power : Nat) : Option Binary64 :=
  ofRatio false (Nat.pow 10 power) 1

/-- The nearest integer to the amount, a half going away from zero. -/
def roundedAmount (x : Binary64) : Nat :=
  let (n, d) := x.ratio
  (2 * n + d) / (2 * d)

end Binary64

end RunnerPool
