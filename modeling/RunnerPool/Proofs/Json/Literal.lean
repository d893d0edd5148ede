import RunnerPool.Proofs.Json.Numeral
import RunnerPool.Proofs.Number.Rounding

/-!
# Integer literals

A numeral without fraction and exponent is written for an integer.  It stands for that integer if
this has 64 bits.  Otherwise it stands for a floating point number, if for any at all; that is zero
for the literal of minus zero, and else a number far beyond 32 bits.

* `Numeral.IsLiteral n`, `Numeral.integer n`   the literals and their integers
* `Numeral.Literally n x`                      what the literal of an integer can stand for

## Main statement

- `Numeral.literally_of_value`: an integer literal stands for one of these
-/

namespace RunnerPool.Json.Numeral

/-- A numeral with neither fraction nor exponent. -/
def IsLiteral (n : Numeral) : Prop := n.fraction = [] ∧ n.exponent = none

instance (n : Numeral) : Decidable n.IsLiteral := inferInstanceAs (Decidable (_ ∧ _))

/-- The integer that a literal is written for, of any size. -/
def integer (n : Numeral) : Int :=
  if n.negative then -(Digits.value n.whole : Int) else Digits.value n.whole

theorem natAbs_integer (n : Numeral) : n.integer.natAbs = Digits.value n.whole := by
  rw [integer]
  split <;> omega

/-- What the literal of an integer can stand for. -/
inductive Literally (n : Numeral) : Number → Prop
  | exact : Literally n (.int n.integer)
  | zero (h : n.integer = 0) : Literally n (.float (.zero n.negative))
  | far {x : Binary64} (h : 2 ^ 63 ≤ n.integer.natAbs) (hx : x.IsAtLeast 60) :
    Literally n (.float x)

/-! ### The digits that are taken -/

theorem Spelled.isDigit_whole {n : Numeral} {w : List Char} (h : n.Spelled w) :
    ∀ c ∈ n.whole, isDigit c = true := by
  cases h with
  | positive _ h | negative _ h =>
    cases h with
    | parts digits => exact digits.2

theorem digitValue_le {c : Char} (h : isDigit c = true) : Digits.digitValue c ≤ 9 := by
  rw [isDigit, Bool.and_eq_true, decide_eq_true_iff, decide_eq_true_iff, Char.le_def, Char.le_def]
    at h
  have hNine : c.toNat ≤ 57 := h.2
  rw [Digits.digitValue]
  have hZero : '0'.toNat = 48 := rfl
  omega

/-- Either all digits are taken, or the next one would lead to the limit; by induction on the
    digits. -/
theorem absorb_cases (limit n : Nat) {ds : List Char} (hDigits : ∀ c ∈ ds, isDigit c = true) :
    absorb limit n ds = (ds.foldl (fun n d => n * 10 + Digits.digitValue d) n, ds.length) ∨
      (absorb limit n ds).2 < ds.length ∧ limit ≤ (absorb limit n ds).1 * 10 + 9 := by
  induction ds generalizing n with
  | nil => exact Or.inl rfl
  | cons d ds ih =>
    obtain ⟨hFirst, hMore⟩ := List.forall_mem_cons.mp hDigits
    rw [absorb]
    split
    -- the digit is taken if it keeps the amount below the limit
    · rcases ih (n * 10 + Digits.digitValue d) hMore with hAll | ⟨hTaken, hLimit⟩
      · rw [hAll]
        exact Or.inl rfl
      · exact Or.inr ⟨Nat.succ_lt_succ hTaken, hLimit⟩
    · have hNine := digitValue_le hFirst
      exact Or.inr ⟨Nat.succ_pos _, by omega⟩

/-- More digits do not make a number smaller. -/
theorem le_foldl_digits (n : Nat) (ds : List Char) :
    n ≤ ds.foldl (fun n d => n * 10 + Digits.digitValue d) n := by
  induction ds generalizing n with
  | nil => exact Nat.le_refl n
  | cons d ds ih => exact Nat.le_trans (by omega) (ih (n * 10 + Digits.digitValue d))

/-- What is taken is no more than what all digits stand for. -/
theorem fst_absorb_le (limit n : Nat) (ds : List Char) :
    (absorb limit n ds).1 ≤ ds.foldl (fun n d => n * 10 + Digits.digitValue d) n := by
  induction ds generalizing n with
  | nil => exact Nat.le_refl n
  | cons d ds ih =>
    rw [absorb]
    split
    · exact ih _
    · exact le_foldl_digits n (d :: ds)

/-! ### The amount -/

/-- A power of ten that is no less than one does not make a number smaller. -/
theorem isAtLeast_of_scale {k steps power : Nat} {x y : Binary64} (hx : x.IsAtLeast k)
    (h : scale (steps + 1) x power = some y) : y.IsAtLeast k := by
  have hSign : (0 : Int) ≤ power := Int.natCast_nonneg power
  simp only [scale, hSign, ↓reduceIte] at h
  -- each step of the scaling multiplies by a power of ten, the last by what is left
  split at h
  · obtain ⟨t, hPower, h⟩ := Option.bind_eq_some_iff.mp h
    exact hx.mul (Binary64.isAtLeast_tenTo hPower) h
  · split at h
    · obtain rfl := Option.some.inj h
      exact hx
    · exact nomatch h

/-- The floating point amount of a literal: the digits that are taken, times a power of ten for
    those that are not. -/
theorem float_of_isLiteral {n : Numeral} (h : n.IsLiteral) :
    n.float =
      match (Binary64.ofNat? (absorb UInt64.size 0 n.whole).1).bind
          (scale 4 · ((n.whole.length - (absorb UInt64.size 0 n.whole).2 : Nat) : Int)) with
      | some x => .ok (x.withSign n.negative)
      | none => .error 0 := by
  obtain ⟨hFraction, hExponent⟩ := h
  cases hScaled : (Binary64.ofNat? (absorb UInt64.size 0 n.whole).1).bind
      (scale 4 · ((n.whole.length - (absorb UInt64.size 0 n.whole).2 : Nat) : Int)) <;>
    simp only [float, hFraction, hExponent, absorb, Int.natCast_zero, Int.sub_zero, hScaled]

/-- Literals of zero stand for zero, with their sign. -/
theorem float_of_zero {n : Numeral} (h : n.IsLiteral) (hDigits : ∀ c ∈ n.whole, isDigit c = true)
    (hZero : n.integer = 0) : n.float = .ok (.zero n.negative) := by
  have hAmount : Digits.value n.whole = 0 := by
    rw [← natAbs_integer, hZero]
    rfl
  -- the digits are absorbed to the end, since the limit is never met by zero
  have hAll : absorb UInt64.size 0 n.whole = (0, n.whole.length) := by
    rcases absorb_cases UInt64.size 0 hDigits with hAll | ⟨-, hLimit⟩
    · rw [hAll, ← Digits.value, hAmount]
    · have hMost := fst_absorb_le UInt64.size 0 n.whole
      rw [← Digits.value, hAmount] at hMost
      have hSize : UInt64.size = 18446744073709551616 := rfl
      omega
  have hScale : (Binary64.ofNat? 0).bind (scale 4 · 0) = some (.zero false) := by decide +kernel
  rw [float_of_isLiteral h, hAll]
  simp only [Nat.sub_self, Int.natCast_zero, hScale]
  rfl

/-- Literals far beyond zero stand for numbers that are, if for any. -/
theorem isAtLeast_of_float {n : Numeral} (h : n.IsLiteral)
    (hDigits : ∀ c ∈ n.whole, isDigit c = true) (hFar : 2 ^ 63 ≤ n.integer.natAbs) {x : Binary64}
    (hFloat : n.float = .ok x) : x.IsAtLeast 60 := by
  have hSize : UInt64.size = 18446744073709551616 := rfl
  -- digits are left over only when those that are taken are near the limit of 64 bits
  have hTaken : 2 ^ 60 ≤ (absorb UInt64.size 0 n.whole).1 := by
    rcases absorb_cases UInt64.size 0 hDigits with hAll | ⟨-, hLimit⟩
    · rw [natAbs_integer, Digits.value] at hFar
      rw [hAll]
      exact Nat.le_trans (by decide) hFar
    · generalize (absorb UInt64.size 0 n.whole).1 = s at hLimit ⊢
      omega
  rw [float_of_isLiteral h] at hFloat
  split at hFloat
  · rename_i y hScaled
    obtain rfl := Except.ok.inj hFloat
    obtain ⟨z, hRound, hScale⟩ := Option.bind_eq_some_iff.mp hScaled
    -- the sign makes no difference to the amount
    have hAmount : y.IsAtLeast 60 :=
      isAtLeast_of_scale (Binary64.isAtLeast_of_ofNat? hTaken hRound) hScale
    exact hAmount
  · cases hFloat

/-- A literal stands for its integer, or is not one of 64 bits and stands for its floating point
    amount. -/
theorem value_cases {n : Numeral} (h : n.IsLiteral) {x : Number} (hValue : n.value = .ok x) :
    x = .int n.integer ∨
      (n.integer = 0 ∨ 2 ^ 63 ≤ n.integer.natAbs) ∧ ∃ y, n.float = .ok y ∧ x = .float y := by
  -- a literal has neither fraction nor exponent, so only the sign and the range are left
  obtain ⟨hFraction, hExponent⟩ := h
  have hMin : Int64.minValue.toInt = -9223372036854775808 := rfl
  have hSize : UInt64.size = 18446744073709551616 := rfl
  rw [natAbs_integer, integer]
  simp only [value, hFraction, hExponent, List.isEmpty_nil, Option.isNone_none, Bool.true_and]
    at hValue
  cases hSign : n.negative with
  | true =>
    simp only [hSign, ↓reduceIte, hMin, Bool.and_eq_true, decide_eq_true_eq] at hValue ⊢
    -- below zero the integer fits `i64`, or it is zero or too large and read as a float
    split at hValue
    · exact Or.inl (Except.ok.inj hValue).symm
    · obtain ⟨y, hFloat, rfl⟩ := exists_of_map_eq_ok hValue
      exact Or.inr ⟨by omega, y, hFloat, rfl⟩
  | false =>
    simp only [hSign, Bool.false_eq_true, ↓reduceIte, hSize, decide_eq_true_eq] at hValue ⊢
    -- otherwise it fits `u64`, or it is too large and read as a float
    split at hValue
    · exact Or.inl (Except.ok.inj hValue).symm
    · obtain ⟨y, hFloat, rfl⟩ := exists_of_map_eq_ok hValue
      exact Or.inr ⟨by omega, y, hFloat, rfl⟩

/-- What an integer literal stands for is its integer, or zero of either sign, or a number far
    beyond 32 bits. -/
theorem literally_of_value {n : Numeral} (h : n.IsLiteral)
    (hDigits : ∀ c ∈ n.whole, isDigit c = true) {x : Number} (hValue : n.value = .ok x) :
    n.Literally x := by
  rcases value_cases h hValue with rfl | ⟨hZero | hFar, y, hFloat, rfl⟩
  · exact .exact
  · rw [float_of_zero h hDigits hZero] at hFloat
    obtain rfl := Except.ok.inj hFloat
    exact .zero hZero
  · exact .far hFar (isAtLeast_of_float h hDigits hFar hFloat)

/-! Neither minus zero nor the first integer beyond 64 bits stands for an integer. -/

example : value ⟨true, ['0'], [], none⟩ = .ok (.float (.zero true)) ∧
    (ofInt 18446744073709551616).value = .ok (.float ⟨false, 2 ^ 52, 12, by decide⟩) := by
  decide +kernel

end RunnerPool.Json.Numeral
