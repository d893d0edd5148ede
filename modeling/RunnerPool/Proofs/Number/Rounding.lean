import Mathlib.Algebra.Order.Ring.Nat
import RunnerPool.Number.Floating

/-!
# Rounding keeps powers of two

The nearest number to a quotient that is no less than a power of two is no less than it either, so
a large number stays large through roundings, products and the way back to an integer.

* `Binary64.IsAtLeast k x`           the amount of the number is no less than a power of two
* `Binary64.isAtLeast_of_ofRatio`    rounding
* `Binary64.IsAtLeast.mul`           products
* `Binary64.IsAtLeast.roundedAmount` the nearest integer
-/

namespace RunnerPool.Binary64

/-- The amount of the number is no less than the power of two. -/
def IsAtLeast (k : Nat) (x : Binary64) : Prop := 2 ^ k * x.ratio.2 ≤ x.ratio.1

/-- `mantissa · 2 ^ e` is no less than the power of two. -/
private def Reaches (k mantissa : Nat) (e : Int) : Prop :=
  if 0 ≤ e then 2 ^ k ≤ mantissa * 2 ^ e.toNat else 2 ^ k * 2 ^ (-e).toNat ≤ mantissa

private theorem isAtLeast_iff (k : Nat) (x : Binary64) :
    x.IsAtLeast k ↔ Reaches k x.mantissa x.exponent := by
  rw [IsAtLeast, ratio, Reaches]
  split
  · rw [Nat.mul_one]
    rfl
  · rfl

/-! ### Rounding -/

theorem div_le_roundHalfEven (num den : Nat) : num / den ≤ roundHalfEven num den := by
  simp only [roundHalfEven]
  split
  · exact Nat.le_succ _
  · exact Nat.le_refl _

/-- What is rounded at an exponent up to that of the power is no less than the power, as its integer
    part is no less than the quotient of the powers. -/
private theorem reaches_of_scaled {k num den : Nat} (hDen : 0 < den) (h : 2 ^ k * den ≤ num)
    {e : Int} (he : e ≤ k) :
    Reaches k (roundHalfEven (scaled num den e).1 (scaled num den e).2) e := by
  have hFloor := div_le_roundHalfEven (scaled num den e).1 (scaled num den e).2
  -- two ways to scale: the denominator up by a power of two, or the numerator
  rw [Reaches]
  split
  · rename_i hSign
    obtain ⟨j, rfl⟩ := Int.eq_ofNat_of_zero_le hSign
    have hj : j ≤ k := by omega
    have hScaled : scaled num den j = (num, den * 2 ^ j) := if_pos hSign
    rw [hScaled] at hFloor ⊢
    -- the scaled fraction is at least `2 ^ (k - j)`, and rounding does not go below its floor
    have hPart : 2 ^ (k - j) ≤ num / (den * 2 ^ j) := by
      rw [Nat.le_div_iff_mul_le (Nat.mul_pos hDen (Nat.two_pow_pos j))]
      calc 2 ^ (k - j) * (den * 2 ^ j) = 2 ^ (k - j) * 2 ^ j * den := by
            rw [Nat.mul_comm den, Nat.mul_assoc]
        _ = 2 ^ k * den := by rw [← Nat.pow_add, Nat.sub_add_cancel hj]
        _ ≤ num := h
    calc 2 ^ k = 2 ^ (k - j) * 2 ^ j := by rw [← Nat.pow_add, Nat.sub_add_cancel hj]
      _ ≤ _ := Nat.mul_le_mul_right _ (Nat.le_trans hPart hFloor)
  · rename_i hSign
    have hScaled : scaled num den e = (num * 2 ^ (-e).toNat, den) := if_neg hSign
    rw [hScaled] at hFloor ⊢
    refine Nat.le_trans ?_ hFloor
    -- the numerator is scaled alone, so the bound is scaled with it
    rw [Nat.le_div_iff_mul_le hDen]
    calc 2 ^ k * 2 ^ (-e).toNat * den = 2 ^ k * den * 2 ^ (-e).toNat := by
          rw [Nat.mul_assoc, Nat.mul_comm _ den, Nat.mul_assoc]
      _ ≤ _ := Nat.mul_le_mul_right _ h

/-- A number of 53 bits with a large exponent is large. -/
private theorem reaches_of_lt {k m : Nat} {e : Int} (hm : 2 ^ 52 ≤ m) (he : (k : Int) < e) :
    Reaches k m e := by
  have hSign : 0 ≤ e := by omega
  rw [Reaches, if_pos hSign]
  have hOne : 1 ≤ m := Nat.le_trans (by decide) hm
  calc 2 ^ k ≤ 2 ^ e.toNat := Nat.pow_le_pow_right (by decide) (by omega)
    _ = 1 * 2 ^ e.toNat := (Nat.one_mul _).symm
    _ ≤ _ := Nat.mul_le_mul_right _ hOne

/-- A mantissa that got a bit too many is the half of it at the next exponent. -/
private theorem Reaches.carry {k : Nat} {e : Int} (h : Reaches k (2 ^ 53) e) :
    Reaches k (2 ^ 52) (e + 1) := by
  -- doubling the step halves what must be reached, on either side of zero
  rw [Reaches] at h ⊢
  split at h
  · rename_i hSign
    have hNext : (e + 1).toNat = e.toNat + 1 := by omega
    rw [if_pos (by omega), hNext, Nat.pow_succ]
    omega
  · rename_i hSign
    have hNext : (-e).toNat = (-(e + 1)).toNat + 1 := by omega
    rw [hNext, Nat.pow_succ, ← Nat.mul_assoc] at h
    split
    -- the step from a fraction to a whole number, where both scales are one
    · have hZero : (e + 1).toNat = 0 := by omega
      have hZero' : (-(e + 1)).toNat = 0 := by omega
      rw [hZero'] at h
      rw [hZero]
      omega
    · omega

/-- The nearest number to a quotient that is no less than a power of two is no less than it. -/
theorem isAtLeast_of_ofRatio {negative : Bool} {k num den : Nat} {x : Binary64} (hDen : 0 < den)
    (h : 2 ^ k * den ≤ num) (hRound : ofRatio negative num den = some x) : x.IsAtLeast k := by
  have hNum : num ≠ 0 := by
    have hPos : 0 < 2 ^ k * den := Nat.mul_pos (Nat.two_pow_pos k) hDen
    omega
  rw [ofRatio, if_neg hNum] at hRound
  generalize exponentOf num den = e at hRound
  rw [isAtLeast_iff]
  obtain ⟨d, hd⟩ : ∃ d, scaled num den e = d := ⟨_, rfl⟩
  have hReach (he : e ≤ k) : Reaches k (roundHalfEven d.1 d.2) e := by
    have hScaled := reaches_of_scaled hDen h he
    rwa [hd] at hScaled
  simp only [hd] at hRound
  split at hRound
  · rename_i hCarry
    split at hRound
    · obtain rfl := Option.some.inj hRound
      by_cases he : e ≤ k
      · have hBits := hReach he
        rw [hCarry] at hBits
        exact hBits.carry
      · exact reaches_of_lt (Nat.le_refl _) (Int.lt_add_one_of_le (Int.le_of_lt (Int.not_le.mp he)))
    · exact nomatch hRound
  · split at hRound
    · rename_i hStored
      obtain rfl := Option.some.inj hRound
      by_cases he : e ≤ k
      · exact hReach he
      · -- above the exponent of the power the mantissa has all its bits
        have hBits := hStored.2.2.2.resolve_right (fun hLeast => he (by omega))
        exact reaches_of_lt hBits (Int.not_le.mp he)
    · exact nomatch hRound

/-! ### Arithmetic -/

theorem ratio_snd_pos (x : Binary64) : 0 < x.ratio.2 := by
  rw [ratio]
  split
  · exact Nat.one_pos
  · exact Nat.two_pow_pos (-x.exponent).toNat

theorem isAtLeast_of_ofNat? {k n : Nat} {x : Binary64} (h : 2 ^ k ≤ n)
    (hRound : ofNat? n = some x) : x.IsAtLeast k :=
  isAtLeast_of_ofRatio Nat.one_pos (by rwa [Nat.mul_one]) hRound

/-- A power of ten is no less than one. -/
theorem isAtLeast_tenTo {power : Nat} {t : Binary64} (h : tenTo power = some t) :
    t.IsAtLeast 0 :=
  isAtLeast_of_ofRatio Nat.one_pos (Nat.pow_pos (by decide)) h

/-- A product with a number that is no less than one is no smaller. -/
theorem IsAtLeast.mul {k : Nat} {x y z : Binary64} (hx : x.IsAtLeast k) (hy : y.IsAtLeast 0)
    (h : x.mul y = some z) : z.IsAtLeast k := by
  rw [IsAtLeast, Nat.pow_zero, Nat.one_mul] at hy
  refine isAtLeast_of_ofRatio (Nat.mul_pos x.ratio_snd_pos y.ratio_snd_pos) ?_ h
  rw [← Nat.mul_assoc]
  exact Nat.mul_le_mul hx hy

/-- The nearest integer to a number that is no less than a power of two is no less than it. -/
theorem IsAtLeast.roundedAmount {k : Nat} {x : Binary64} (h : x.IsAtLeast k) :
    2 ^ k ≤ x.roundedAmount := by
  have hPos := x.ratio_snd_pos
  rw [IsAtLeast] at h
  simp only [Binary64.roundedAmount]
  rw [Nat.le_div_iff_mul_le (by omega), Nat.mul_left_comm]
  omega

end RunnerPool.Binary64
