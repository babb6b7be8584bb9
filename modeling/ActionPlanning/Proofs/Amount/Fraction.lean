import ActionPlanning.Proofs.Amount.Rounding

/-!
# Rounding fractions

Not every worth is a whole number of units: the quotient of two amounts and the worth of a decimal
numeral are fractions of it. A fraction is rounded like a whole number. The bits in excess of a
significand are counted on its whole part, and what is dropped with them is the rest of a division.
Only the fraction matters and not how it is written.

## Main definitions

* `nearestDiv`: the number of the amount that is nearest to a fraction of units.

## Main results

* `nearestDiv_congr`: equal fractions are rounded to the same amount.
* `nearestDiv_eq_zero`: less than half a unit is rounded to nothing.
-/

namespace ActionPlanning.Amount

/-- The number of the amount that is nearest to `s / d` units. -/
def nearestDiv (s d : Nat) : Nat :=
  excess (s / d) * 2 ^ 52 + roundDiv s (d * 2 ^ excess (s / d))

variable {s t d e j k n : Nat}

theorem nearestDiv_one (s : Nat) : nearestDiv s 1 = nearest s := by
  rw [nearestDiv, Nat.div_one, Nat.one_mul, nearest, halfEven_eq_roundDiv]

theorem nearestDiv_mul (s d : Nat) (positive : 0 < k) :
    nearestDiv (s * k) (d * k) = nearestDiv s d := by
  simp only [nearestDiv, Nat.mul_div_mul_right _ _ positive, Nat.mul_right_comm d k,
    roundDiv_mul _ _ positive]

/-- Equal fractions are rounded to the same amount. -/
theorem nearestDiv_congr (positiveD : 0 < d) (positiveE : 0 < e) (same : s * e = t * d) :
    nearestDiv s d = nearestDiv t e := by
  rw [← nearestDiv_mul s d positiveE, same, Nat.mul_comm d, nearestDiv_mul t e positiveD]

/-- What is worth a whole number of units is rounded as that number. -/
theorem nearestDiv_mul_self (s : Nat) (positive : 0 < d) : nearestDiv (s * d) d = nearest s := by
  rw [← nearestDiv_one]
  exact nearestDiv_congr positive Nat.one_pos (Nat.mul_one _)

/-- Less than half a unit is rounded to nothing. -/
theorem nearestDiv_eq_zero (little : 2 * s < d) : nearestDiv s d = 0 := by
  have less : s < d := by omega
  have none : excess 0 = 0 := by decide
  rw [nearestDiv, Nat.div_eq_of_lt less, none, Nat.zero_mul, Nat.zero_add, Nat.pow_zero,
    Nat.mul_one, roundDiv, Nat.div_eq_of_lt less, Nat.mod_eq_of_lt less, if_neg (by omega)]

/-- A fraction of at least `2 ^ (53 + k)` units has more than `k` bits in excess, and its number is
high accordingly. -/
theorem le_nearestDiv (much : 2 ^ (53 + k) ≤ s / d) : (k + 2) * 2 ^ 52 ≤ nearestDiv s d := by
  have positive : s / d ≠ 0 := Nat.ne_of_gt (Nat.lt_of_lt_of_le (Nat.two_pow_pos _) much)
  have long := (Nat.le_log2 positive).mpr much
  have exceeds : k + 1 ≤ excess (s / d) := by
    unfold excess
    omega
  -- With excess bits, what is left without them has a leading one, which counts for one scale more.
  have full := le_div_excess (Nat.lt_of_lt_of_le (Nat.succ_pos k) exceeds)
  have rounded := le_roundDiv s (d * 2 ^ excess (s / d))
  rw [← Nat.div_div_eq_div_mul] at rounded
  have scaled := Nat.mul_le_mul_right (2 ^ 52) exceeds
  rw [nearestDiv, Nat.add_mul, Nat.two_mul]
  omega

/-- Scaling a fraction makes its whole part longer by as many bits. -/
theorem excess_mul_div (positive : 0 < d) (short : s / d = 0 → j = 0) :
    excess (s * 2 ^ j / d) = excess (s / d * 2 ^ j) := by
  rcases Nat.eq_zero_or_pos (s / d) with none | some
  · rw [short none, Nat.pow_zero, Nat.mul_one, Nat.mul_one]
  · have nonzero := Nat.ne_of_gt some
    -- The quotient of the scaled number lies between two powers of two that tell its length.
    have low : (s / d) * 2 ^ j ≤ s * 2 ^ j / d := by
      rw [Nat.le_div_iff_mul_le positive, Nat.mul_right_comm]
      exact Nat.mul_le_mul_right _ (Nat.div_mul_le_self s d)
    have high : s * 2 ^ j / d < 2 ^ ((s / d).log2 + 1 + j) := by
      rw [Nat.div_lt_iff_lt_mul positive, Nat.pow_add, Nat.mul_right_comm]
      exact Nat.mul_lt_mul_of_pos_right ((Nat.div_lt_iff_lt_mul positive).mp Nat.lt_log2_self)
        (Nat.two_pow_pos j)
    have scaledNonzero : s * 2 ^ j / d ≠ 0 :=
      Nat.ne_of_gt (Nat.lt_of_lt_of_le (Nat.mul_pos some (Nat.two_pow_pos j)) low)
    have length : (s * 2 ^ j / d).log2 = (s / d).log2 + j := by
      rw [Nat.log2_eq_iff scaledNonzero, Nat.add_right_comm]
      refine ⟨Nat.le_trans ?_ low, high⟩
      rw [Nat.pow_add]
      exact Nat.mul_le_mul_right _ (Nat.log2_self_le nonzero)
    unfold excess
    rw [length, log2_mul_two_pow nonzero]

end ActionPlanning.Amount
