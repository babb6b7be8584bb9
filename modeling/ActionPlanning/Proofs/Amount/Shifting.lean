import ActionPlanning.Proofs.Amount.Fraction
import Mathlib

/-!
# Shifting and rounding

The result of an operation is first held as a whole number with two bits behind it: the first of
the bits that are missing, and whether any other of them is set. Shifting moves bits from the whole
number into these two, and they say how to round. So they stand for the fraction that is rounded:
a quotient that was divided out so far, with what is left of it. The shift goes on until no bits
are in excess of a significand. If rounding carries over into one bit more, one more shift makes up
for it.

## Main definitions

* `Holds`: a whole number with two bits behind it that stands for a fraction.

## Main results

* `Holds.shiftRight`: shifting is dividing.
* `Holds.roundedMantissa`: the two bits say how to round.
* `roundWithAccuracy_finite`, `roundWithAccuracy_zero`: rounding goes to the nearest amount.
-/

namespace ActionPlanning.Amount

open Float.Model
open UnpackedFloat (ExtendedMantissa)

variable {m s d j q rest : Nat} {em : ExtendedMantissa}

/-! ## Fractions that are held -/

/-- A whole number with two bits behind it stands for the fraction `s / d`: it is the quotient, the
first bit is that of the half, and the second says whether there is a rest behind it. -/
structure Holds (s d : Nat) (em : ExtendedMantissa) (rest : Nat) : Prop where
  mantissa : em.mantissa = s / d
  dropped : 2 * (s % d) = em.roundBit.toNat * d + rest
  lt : rest < d
  sticky : em.stickyBit = decide (0 < rest)

/-- A quotient is held with the accuracy that its remainder gives. -/
theorem exists_holds (s : Nat) (positive : 0 < d) :
    ∃ rest, Holds s d (.ofMantissaAndAccuracy (s / d)
      (UnpackedFloat.accuracyOfFraction (s % d) d)) rest := by
  have less := Nat.mod_lt s positive
  unfold UnpackedFloat.accuracyOfFraction
  rcases Nat.eq_zero_or_pos (s % d) with nothing | something
  · rw [if_pos nothing]
    exact ⟨0, rfl, by simp [ExtendedMantissa.ofMantissaAndAccuracy, nothing], positive, rfl⟩
  · rw [if_neg (Nat.ne_of_gt something)]
    rcases Nat.lt_trichotomy (2 * (s % d)) d with below | half | above
    · rw [Nat.compare_eq_lt.mpr below]
      refine ⟨2 * (s % d), rfl, by simp [ExtendedMantissa.ofMantissaAndAccuracy], below, ?_⟩
      exact (decide_eq_true (by omega)).symm
    · rw [Nat.compare_eq_eq.mpr half]
      exact ⟨0, rfl, by simp [ExtendedMantissa.ofMantissaAndAccuracy, half], positive, rfl⟩
    · rw [Nat.compare_eq_gt.mpr above]
      refine ⟨2 * (s % d) - d, rfl, ?_, by omega, ?_⟩
      · simp only [ExtendedMantissa.ofMantissaAndAccuracy, Bool.toNat_true]
        omega
      · exact (decide_eq_true (by omega)).symm

/-- One shift halves the fraction. -/
theorem Holds.shiftRightOne (holds : Holds s d em rest) :
    Holds s (d * 2) em.shiftRightOne (2 * (s % d)) where
  mantissa := by rw [ExtendedMantissa.shiftRightOne, holds.mantissa, Nat.div_div_eq_div_mul]
  dropped := by
    -- What was dropped so far stands behind the bit that is dropped now.
    rw [ExtendedMantissa.shiftRightOne, holds.mantissa, Nat.mod_mul]
    rcases Nat.mod_two_eq_zero_or_one (s / d) with even | odd
    · simp [even]
    · simp [odd]
      omega
  lt := by
    have := holds.lt
    have := Nat.mod_lt s (Nat.zero_lt_of_lt holds.lt)
    omega
  sticky := by
    rw [ExtendedMantissa.shiftRightOne, holds.sticky, holds.dropped]
    cases em.roundBit with
    | false =>
      rw [Bool.toNat_false, Nat.zero_mul, Nat.zero_add]
      exact Bool.false_or _
    | true =>
      have some : 0 < true.toNat * d + rest := by
        rw [Bool.toNat_true, Nat.one_mul]
        exact Nat.add_pos_left (Nat.zero_lt_of_lt holds.lt) rest
      exact (decide_eq_true some).symm

/-- Shifting is dividing by a power of two. -/
theorem Holds.shiftRight (holds : Holds s d em rest) (q : Nat) :
    ∃ rest, Holds s (d * 2 ^ q) (em >>> q) rest := by
  induction q with
  | zero => exact ⟨rest, by rwa [Nat.pow_zero, Nat.mul_one]⟩
  | succ q ih =>
    obtain ⟨rest, holds⟩ := ih
    rw [Nat.pow_succ, ← Nat.mul_assoc]
    exact ⟨_, holds.shiftRightOne⟩

/-- The two bits behind the quotient say how to round the fraction. -/
theorem Holds.roundedMantissa (holds : Holds s d em rest) : em.roundedMantissa = roundDiv s d := by
  obtain ⟨mantissa, dropped, lt, sticky⟩ := holds
  obtain ⟨quotient, roundBit, stickyBit⟩ := em
  simp only at mantissa dropped sticky
  subst mantissa sticky
  have parity := Nat.mod_two_eq_zero_or_one (s / d)
  unfold roundDiv
  rw [dropped]
  -- The first bit stands for half of the divisor, so only the tie asks for the parity.
  cases roundBit <;> rcases Nat.eq_zero_or_pos rest with rfl | positive <;>
    simp only [ExtendedMantissa.roundedMantissa, ExtendedMantissa.accuracy,
      UnpackedFloat.Accuracy.roundToNearestEven, Bool.toNat_false, Bool.toNat_true, Nat.zero_mul,
      Nat.one_mul, Nat.lt_irrefl, decide_false, decide_true, *] <;>
    split <;> omega

/-- A fraction that is held and shifted is rounded as what it is then. -/
theorem roundedMantissa_shiftRight (s : Nat) (positive : 0 < d) (q : Nat) :
    (ExtendedMantissa.ofMantissaAndAccuracy (s / d)
      (UnpackedFloat.accuracyOfFraction (s % d) d) >>> q).roundedMantissa
      = roundDiv s (d * 2 ^ q) := by
  obtain ⟨_, held⟩ := exists_holds s positive
  obtain ⟨_, shifted⟩ := held.shiftRight q
  exact shifted.roundedMantissa

/-! ## Rounding to a target exponent -/

/-- The target exponent scales a number by its excess bits; for nothing it is the least. -/
theorem targetExponent_eq (short : m = 0 → j = 0) :
    Format.binary64.targetExponent (totalExponent m (j - 1074)) = excess (m * 2 ^ j) - 1074 := by
  rcases Nat.eq_zero_or_pos m with rfl | positive
  · rw [short rfl]
    rfl
  · unfold excess
    rw [log2_mul_two_pow (Nat.ne_of_gt positive)]
    change max ((m.log2 : Int) + 1 + (j - 1074) - 53) (-1074) = _
    omega

/-- A number is shifted until no excess bits are left. -/
theorem shiftToTargetExponent_eq (short : m = 0 → j = 0) (accuracy : UnpackedFloat.Accuracy) :
    UnpackedFloat.shiftToTargetExponent Format.binary64 m (j - 1074) accuracy
      = (ExtendedMantissa.ofMantissaAndAccuracy m accuracy >>> (excess (m * 2 ^ j) - j),
        ((max j (excess (m * 2 ^ j)) : Nat) : Int) - 1074) := by
  have shift : ((excess (m * 2 ^ j) - 1074 : Int) - (j - 1074)).toNat
      = excess (m * 2 ^ j) - j := by omega
  simp only [UnpackedFloat.shiftToTargetExponent, UnpackedFloat.shiftToExponent,
    targetExponent_eq short, shift]
  congr 1
  omega

/-- A rounded significand needs one more shift if rounding carried over, and then nothing but
zeros is dropped. -/
theorem exists_shiftToTargetExponent {r x : Nat} (positive : 0 < r) (atMost : r ≤ 2 ^ 53)
    (full : 0 < x → 2 ^ 52 ≤ r) :
    ∃ (em : ExtendedMantissa) (k : Nat),
      UnpackedFloat.shiftToTargetExponent Format.binary64 r (x - 1074) .exact
        = (em, (k : Int) - 1074) ∧
      0 < em.mantissa ∧ k * 2 ^ 52 + em.mantissa = x * 2 ^ 52 + r ∧ em.mantissa < 2 ^ 53 ∧
      (em.mantissa < 2 ^ 52 → k = 0) := by
  have nonzero := Nat.ne_of_gt positive
  have length := log2_mul_two_pow nonzero x
  rw [shiftToTargetExponent_eq (absurd · nonzero)]
  -- Only a significand that was rounded up to the next power of two is too long.
  rcases Nat.lt_or_eq_of_le atMost with fits | rfl
  · have few := log2_lt_of_lt fits
    have within : excess (r * 2 ^ x) ≤ x := by
      unfold excess
      omega
    rw [Nat.sub_eq_zero_of_le within, Nat.max_eq_left within]
    refine ⟨_, x, rfl, positive, rfl, fits, fun low => ?_⟩
    by_contra exceeds
    exact absurd (full (Nat.pos_of_ne_zero exceeds)) (Nat.not_le.mpr low)
  · rw [Nat.log2_two_pow] at length
    have more : excess (2 ^ 53 * 2 ^ x) = x + 1 := by
      unfold excess
      omega
    rw [more, Nat.add_sub_cancel_left, Nat.max_eq_right (Nat.le_succ _)]
    refine ⟨_, x + 1, rfl, by decide, ?_, by decide, fun low => absurd low (by decide)⟩
    change (x + 1) * 2 ^ 52 + 2 ^ 52 = x * 2 ^ 52 + 2 ^ 53
    omega

section

variable (positive : 0 < d) (fine : j ≤ excess (s / d * 2 ^ j))

include fine in
/-- Only what is not scaled at all has no whole part. -/
theorem short_of_fine (none : s / d = 0) : j = 0 := by
  rw [none, Nat.zero_mul] at fine
  exact Nat.le_zero.mp fine

include positive fine in
/-- The number of a fraction is made of its excess bits and what it is rounded to without them. -/
theorem nearestDiv_eq_of_fine :
    nearestDiv (s * 2 ^ j) d = excess (s / d * 2 ^ j) * 2 ^ 52 +
      roundDiv s (d * 2 ^ (excess (s / d * 2 ^ j) - j)) := by
  have divisor : d * 2 ^ excess (s / d * 2 ^ j)
      = d * 2 ^ (excess (s / d * 2 ^ j) - j) * 2 ^ j := by
    rw [Nat.mul_assoc, ← Nat.pow_add, Nat.sub_add_cancel fine]
  rw [nearestDiv, excess_mul_div positive (short_of_fine fine), divisor,
    roundDiv_mul _ _ (Nat.two_pow_pos j)]

include fine in
theorem div_excess_eq :
    s / (d * 2 ^ (excess (s / d * 2 ^ j) - j)) = s / d * 2 ^ j / 2 ^ excess (s / d * 2 ^ j) := by
  obtain ⟨q, same⟩ := Nat.exists_eq_add_of_le fine
  rw [same, Nat.add_sub_cancel_left, Nat.add_comm j q, Nat.pow_add,
    Nat.mul_div_mul_right _ _ (Nat.two_pow_pos j), Nat.div_div_eq_div_mul]

include fine in
/-- The shift to the target exponent drops just the excess bits. -/
theorem shiftToTargetExponent_of_fine :
    UnpackedFloat.shiftToTargetExponent Format.binary64 (s / d) (j - 1074)
        (UnpackedFloat.accuracyOfFraction (s % d) d)
      = (ExtendedMantissa.ofMantissaAndAccuracy (s / d)
            (UnpackedFloat.accuracyOfFraction (s % d) d) >>>
          (excess (s / d * 2 ^ j) - j), (excess (s / d * 2 ^ j) : Int) - 1074) := by
  rw [shiftToTargetExponent_eq (short_of_fine fine), Nat.max_eq_right fine]

include positive fine in
/-- Rounding a fraction that is scaled no further than its excess bits goes to the nearest amount,
given by its significand and its scale. -/
theorem roundWithAccuracy_finite (some : 0 < nearestDiv (s * 2 ^ j) d) :
    ∃ (m k : Nat) (positive' : 0 < m),
      UnpackedFloat.roundWithAccuracy Format.binary64 .positive (s / d) (j - 1074)
          (UnpackedFloat.accuracyOfFraction (s % d) d)
        = .finite .positive m (k - 1074) positive' ∧
      k * 2 ^ 52 + m = nearestDiv (s * 2 ^ j) d ∧ m < 2 ^ 53 ∧ (m < 2 ^ 52 → k = 0) := by
  have number := nearestDiv_eq_of_fine positive fine
  have rounded := roundedMantissa_shiftRight s positive (excess (s / d * 2 ^ j) - j)
  have bound := roundDiv_le s (d * 2 ^ (excess (s / d * 2 ^ j) - j))
  have least := le_roundDiv s (d * 2 ^ (excess (s / d * 2 ^ j) - j))
  have short := div_excess_lt (s / d * 2 ^ j)
  rw [div_excess_eq fine] at bound least
  have full (exceeds : 0 < excess (s / d * 2 ^ j)) :
      2 ^ 52 ≤ roundDiv s (d * 2 ^ (excess (s / d * 2 ^ j) - j)) :=
    Nat.le_trans (le_div_excess exceeds) least
  have nonzero : 0 < roundDiv s (d * 2 ^ (excess (s / d * 2 ^ j) - j)) := by
    rcases Nat.eq_zero_or_pos (excess (s / d * 2 ^ j)) with none | exceeds
    · rw [none, Nat.zero_mul, Nat.zero_add] at number
      rwa [none, ← number]
    · exact Nat.lt_of_lt_of_le (by decide) (full exceeds)
  obtain ⟨em, k, shifted, left, same, fits, low⟩ :=
    exists_shiftToTargetExponent nonzero (by omega) full
  refine ⟨em.mantissa, k, left, ?_, same.trans number.symm, fits, low⟩
  simp only [UnpackedFloat.roundWithAccuracy, shiftToTargetExponent_of_fine fine, rounded,
    shifted]
  exact dif_neg (Nat.ne_of_gt left)

include positive fine in
/-- Less than half a unit is rounded to zero. -/
theorem roundWithAccuracy_zero (none : nearestDiv (s * 2 ^ j) d = 0) :
    UnpackedFloat.roundWithAccuracy Format.binary64 .positive (s / d) (j - 1074)
        (UnpackedFloat.accuracyOfFraction (s % d) d) = .zero .positive := by
  have number := nearestDiv_eq_of_fine positive fine
  have rounded := roundedMantissa_shiftRight s positive (excess (s / d * 2 ^ j) - j)
  have noExcess : excess (s / d * 2 ^ j) = 0 := by omega
  have nothing : roundDiv s (d * 2 ^ (excess (s / d * 2 ^ j) - j)) = 0 := by omega
  rw [nothing] at rounded
  simp only [UnpackedFloat.roundWithAccuracy, shiftToTargetExponent_of_fine fine, rounded]
  exact dif_pos (by rw [noExcess]; rfl)

end

end ActionPlanning.Amount
