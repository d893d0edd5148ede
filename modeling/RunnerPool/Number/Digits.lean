/-! # Decimal digits

Natural numbers in base ten.

* `Digits.value ds`      the number that digits stand for
* `Digits.ofNat n`       the digits of a number, without zeros in front
* `Digits.ofInt n`       the same of an integer
* `Digits.padded w n`    the digits of a natural number with zeros in front up to a width
* `Digits.take most cs`  the digits at the start of a text, and what remains -/

namespace RunnerPool.Digits

/-- What a digit stands for. -/
def digitValue (c : Char) : Nat :=
  c.toNat - '0'.toNat

/-- The natural number that digits stand for. -/
def value (ds : List Char) : Nat :=
  ds.foldl (fun n d => n * 10 + digitValue d) 0

/-- The digits of a natural number. -/
def ofNat (n : Nat) : List Char :=
  Nat.toDigits 10 n

/-- The digits of an integer, a minus sign before a negative one. -/
def ofInt (n : Int) : List Char :=
  if n < 0 then '-' :: ofNat n.natAbs else ofNat n.natAbs

/-- The digits of a natural number, with zeros in front up to a width. -/
def padded (width n : Nat) : List Char :=
  List.replicate (width - (ofNat n).length) '0' ++ ofNat n

/-- The digits at the start of a text, at most so many, and what remains. -/
def take (most : Nat) (cs : List Char) : List Char × List Char :=
  let ds := (cs.take most).takeWhile Char.isDigit
  (ds, cs.drop ds.length)

end RunnerPool.Digits
