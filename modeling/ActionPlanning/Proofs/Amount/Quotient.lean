import ActionPlanning.Proofs.Amount.Sum

/-!
# Products and quotients of amounts

A product of significands has all the bits that it is rounded from. A quotient is divided out until
it has as many bits as a significand, and its remainder says how to round it. So both are the
amounts nearest to their exact worth, or infinity where that lies beyond all finite amounts, and a
quotient that is worth less than half a unit is zero.

## Main results

* `toNat_pack_round`: rounding a fraction goes to the bits of the nearest amount.
* `toNat_pack_mul`: the product of two significands with their exponents.
* `toNat_pack_div`: the quotient of two significands with their exponents.
-/

namespace ActionPlanning.Amount

open Float.Model

variable {m n s d i j : Nat} {e f : Int}

/-- Rounding a fraction that is scaled no further than its excess bits goes to the bits of the
nearest amount. -/
theorem toNat_pack_round (positive : 0 < d) (fine : j ≤ excess (s / d * 2 ^ j)) :
    (UnpackedFloat.pack Format.binary64 (UnpackedFloat.roundWithAccuracy Format.binary64 .positive
      (s / d) (j - 1074) (UnpackedFloat.accuracyOfFraction (s % d) d))).toNat
      = min (nearestDiv (s * 2 ^ j) d) infinite := by
  -- Rounding down to nothing gives zero, which has no significand.
  rcases Nat.eq_zero_or_pos (nearestDiv (s * 2 ^ j) d) with none | some
  · rw [roundWithAccuracy_zero positive fine none, none]
    rfl
  · obtain ⟨m, k, left, rounded, number, short, low⟩ := roundWithAccuracy_finite positive fine some
    rw [rounded, toNat_pack left short low, number]

/-- What has as many bits as a significand is scaled no further than its excess bits. -/
theorem le_excess_of_long (long : 2 ^ 52 ≤ m) (j : Nat) : j ≤ excess (m * 2 ^ j) := by
  have nonzero : m ≠ 0 := Nat.ne_of_gt (Nat.lt_of_lt_of_le (by decide) long)
  have bits := (Nat.le_log2 nonzero).mpr long
  unfold excess
  rw [log2_mul_two_pow nonzero]
  omega

/-- Products are rounded to the nearest amount. -/
theorem toNat_pack_mul (positiveM : 0 < m) (positiveN : 0 < n) (exponent : e + f = j - 1074)
    (long : 2 ^ 52 ≤ m * n) :
    (UnpackedFloat.pack Format.binary64 (UnpackedFloat.mul Format.binary64
      (.finite .positive m e positiveM) (.finite .positive n f positiveN))).toNat
      = min (nearest (m * n * 2 ^ j)) infinite := by
  have whole := toNat_pack_round (s := m * n) (j := j) Nat.one_pos
  rw [Nat.div_one, Nat.mod_one, nearestDiv_one] at whole
  rw [← whole (le_excess_of_long long j), ← exponent]
  rfl

/-- The first of two positive numbers, shifted until it has 53 bits more than the second, goes into
it at least `2 ^ 52` times. -/
theorem le_shifted_div (positiveM : 0 < m) (positiveN : 0 < n)
    (shifted : n.log2 + 53 ≤ m.log2 + i) : 2 ^ 52 ≤ m * 2 ^ i / n := by
  rw [Nat.le_div_iff_mul_le positiveN]
  calc 2 ^ 52 * n ≤ 2 ^ 52 * 2 ^ (n.log2 + 1) :=
        Nat.mul_le_mul_left _ (Nat.le_of_lt Nat.lt_log2_self)
    _ = 2 ^ (n.log2 + 53) := by rw [← Nat.pow_add]; congr 1; omega
    _ ≤ 2 ^ (m.log2 + i) := Nat.pow_le_pow_right Nat.two_pos shifted
    _ = 2 ^ m.log2 * 2 ^ i := Nat.pow_add ..
    _ ≤ m * 2 ^ i := Nat.mul_le_mul_right _ (Nat.log2_self_le (Nat.ne_of_gt positiveM))

/-- The quotient is divided out until it is as long as a significand, or as far down as the least
exponent. -/
theorem exists_divCore_eq (m n : Nat) (exponent : e - f = i - 1074) :
    ∃ j ≤ i, UnpackedFloat.divCore Format.binary64 m e n f
        = (m * 2 ^ (i - j) / n, (j : Int) - 1074,
          UnpackedFloat.accuracyOfFraction (m * 2 ^ (i - j) % n) n) ∧
      (j = 0 ∨ n.log2 + 53 ≤ m.log2 + (i - j)) := by
  have target : Format.binary64.targetExponent (totalExponent m e - totalExponent n f)
      = max ((m.log2 : Int) + 1 + e - (n.log2 + 1 + f) - 53) (-1074) := rfl
  obtain ⟨j, least⟩ : ∃ j : Nat,
      min (e - f) (Format.binary64.targetExponent (totalExponent m e - totalExponent n f))
        = (j : Int) - 1074 := by
    refine ⟨(min (e - f) (Format.binary64.targetExponent
      (totalExponent m e - totalExponent n f)) + 1074).toNat, ?_⟩
    rw [target]
    omega
  have shift : (e - f - ((j : Int) - 1074)).toNat = i - j := by omega
  -- If the least exponent does not cut it short, the shift makes up for the difference in length.
  refine ⟨j, by omega, ?_, ?_⟩
  · simp only [UnpackedFloat.divCore, least, shift, Nat.shiftLeft_eq]
  · rw [target] at least
    omega

/-- Quotients are rounded to the nearest amount. -/
theorem toNat_pack_div (positiveM : 0 < m) (positiveN : 0 < n) (exponent : e - f = i - 1074) :
    (UnpackedFloat.pack Format.binary64 (UnpackedFloat.div Format.binary64
      (.finite .positive m e positiveM) (.finite .positive n f positiveN))).toNat
      = min (nearestDiv (m * 2 ^ i) n) infinite := by
  obtain ⟨j, atMost, core, long⟩ := exists_divCore_eq m n exponent
  have fine : j ≤ excess (m * 2 ^ (i - j) / n * 2 ^ j) := by
    rcases long with rfl | long
    · exact Nat.zero_le _
    · exact le_excess_of_long (le_shifted_div positiveM positiveN long) j
  have worth : m * 2 ^ (i - j) * 2 ^ j = m * 2 ^ i := by
    rw [Nat.mul_assoc, ← Nat.pow_add, Nat.sub_add_cancel atMost]
  rw [← worth, ← toNat_pack_round positiveN fine]
  simp only [UnpackedFloat.div, core]
  rfl

end ActionPlanning.Amount
