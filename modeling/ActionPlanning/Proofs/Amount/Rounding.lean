import Mathlib.Algebra.Group.Nat.Defs
import Mathlib.Order.Monotone.Basic

/-!
# Rounding to the nearest amount

The amounts that are not negative are numbered by their bits. In units of the least positive
amount each of them is worth a whole number: a significand of up to 53 bits, scaled by a power of
two. A sum of two amounts is worth a number of units too, but one that may need more than 53 bits;
it is then rounded to the nearest amount, and between two amounts to the even one. Rounding is
monotone and moves no amount, and that is all that is used of it later.

## Main definitions

* `significand`, `scale`, `units`: what the amount with a number is worth.
* `roundDiv`: division, rounded to the nearest and then to the even quotient; `halfEven`: by a power
  of two.
* `nearest`: the number of the amount that is nearest to a worth.

## Main results

* `nearest_mono`: rounding is monotone.
* `nearest_units`: rounding moves no amount.
* `units_strictMono`: a higher number is worth more.
* `units_nearest`: rounding loses nothing of a short number, however it is scaled.
-/

namespace ActionPlanning.Amount

/-- The significand of the amount with number `n`. -/
def significand (n : Nat) : Nat := if n < 2 ^ 52 then n else 2 ^ 52 + n % 2 ^ 52

/-- The power of two that scales the significand of the amount with number `n`. -/
def scale (n : Nat) : Nat := n / 2 ^ 52 - 1

/-- What the amount with number `n` is worth, in units of the least positive one. -/
def units (n : Nat) : Nat := significand n * 2 ^ scale n

/-- The quotient `s / d`, rounded to the nearest whole number, and between two of them to the even
one. -/
def roundDiv (s d : Nat) : Nat := s / d + if d < 2 * (s % d) + s / d % 2 then 1 else 0

/-- The quotient by `2 ^ q`, rounded to the nearest whole number, and between two of them to the
even one. -/
def halfEven (s q : Nat) : Nat :=
  s / 2 ^ q + if 2 ^ q < 2 * (s % 2 ^ q) + s / 2 ^ q % 2 then 1 else 0

/-- The number of bits that a worth has in excess of a significand. -/
def excess (s : Nat) : Nat := s.log2 + 1 - 53

/-- The number of the amount that is nearest to a worth. -/
def nearest (s : Nat) : Nat := excess s * 2 ^ 52 + halfEven s (excess s)

variable {s t n m k : Nat}

/-! ## Significand and scale -/

/-- A number is read off its scale and its significand. -/
theorem scale_mul_add_significand (n : Nat) : scale n * 2 ^ 52 + significand n = n := by
  unfold scale significand
  split <;> omega

theorem significand_lt (n : Nat) : significand n < 2 ^ 53 := by
  unfold significand
  split <;> omega

/-- Only the amounts at the bottom have a short significand. -/
theorem scale_eq_zero (short : significand n < 2 ^ 52) : scale n = 0 := by
  unfold significand at short
  unfold scale
  split at short <;> omega

/-! ## Rounding a quotient -/

theorem le_roundDiv (s d : Nat) : s / d ≤ roundDiv s d := Nat.le_add_right _ _

theorem roundDiv_le (s d : Nat) : roundDiv s d ≤ s / d + 1 := by
  unfold roundDiv
  split <;> omega

/-- A quotient of a number and a divisor that share a factor is rounded without it. -/
theorem roundDiv_mul (s d : Nat) (positive : 0 < k) : roundDiv (s * k) (d * k) = roundDiv s d := by
  have scaled : d * k < 2 * (s % d * k) + s / d % 2 ↔ d < 2 * (s % d) + s / d % 2 := by
    rw [← Nat.mul_assoc]
    -- The parity decides only a tie, and scaling keeps ties.
    rcases Nat.mod_two_eq_zero_or_one (s / d) with even | odd
    · rw [even, Nat.add_zero, Nat.add_zero, Nat.mul_lt_mul_right positive]
    · rw [odd, Nat.lt_succ_iff, Nat.lt_succ_iff, Nat.mul_le_mul_right_iff positive]
  simp only [roundDiv, Nat.mul_div_mul_right _ _ positive, Nat.mul_mod_mul_right, scaled]

theorem roundDiv_mono (d : Nat) (le : s ≤ t) : roundDiv s d ≤ roundDiv t d := by
  have quotients : s / d ≤ t / d := Nat.div_le_div_right le
  rcases Nat.lt_or_eq_of_le quotients with less | same
  · exact Nat.le_trans (roundDiv_le s d) (Nat.le_trans less (le_roundDiv t d))
  · -- With the quotients the same, the remainders decide.
    have remainders : s % d ≤ t % d := by
      have splitS := Nat.div_add_mod s d
      have splitT := Nat.div_add_mod t d
      rw [same] at splitS
      omega
    unfold roundDiv
    rw [same]
    split <;> split <;> omega

theorem halfEven_eq_roundDiv (s q : Nat) : halfEven s q = roundDiv s (2 ^ q) := rfl

theorem halfEven_zero (s : Nat) : halfEven s 0 = s := by
  unfold halfEven
  rw [Nat.pow_zero, Nat.div_one, Nat.mod_one]
  split <;> omega

/-- Zeros at the end of both numbers make no difference. -/
theorem halfEven_mul (s q k : Nat) : halfEven (s * 2 ^ k) (q + k) = halfEven s q := by
  rw [halfEven_eq_roundDiv, halfEven_eq_roundDiv, Nat.pow_add,
    roundDiv_mul _ _ (Nat.two_pow_pos k)]

theorem halfEven_mono (q : Nat) (le : s ≤ t) : halfEven s q ≤ halfEven t q :=
  roundDiv_mono (2 ^ q) le

/-! ## Rounding a worth -/

theorem excess_mono (le : s ≤ t) : excess s ≤ excess t := by
  unfold excess
  rcases Nat.eq_zero_or_pos s with rfl | positive
  · exact Nat.zero_le _
  · have more := (Nat.le_log2 (Nat.ne_zero_of_lt (Nat.lt_of_lt_of_le positive le))).mpr
      (Nat.le_trans (Nat.log2_self_le (Nat.ne_zero_of_lt positive)) le)
    omega

/-- What is left of a worth without its excess bits fits a significand. -/
theorem div_excess_lt (s : Nat) : s / 2 ^ excess s < 2 ^ 53 := by
  rw [Nat.div_lt_iff_lt_mul (Nat.two_pow_pos _), ← Nat.pow_add]
  refine Nat.lt_of_lt_of_le Nat.lt_log2_self (Nat.pow_le_pow_right Nat.two_pos ?_)
  unfold excess
  omega

/-- If there are excess bits, what is left without them fills a significand. -/
theorem le_div_excess (exceeds : 0 < excess s) : 2 ^ 52 ≤ s / 2 ^ excess s := by
  have long : 52 < s.log2 := by
    unfold excess at exceeds
    omega
  have positive : s ≠ 0 := by
    intro zero
    rw [zero] at long
    exact absurd long (by decide)
  rw [Nat.le_div_iff_mul_le (Nat.two_pow_pos _), ← Nat.pow_add]
  refine Nat.le_trans (Nat.pow_le_pow_right Nat.two_pos ?_) (Nat.log2_self_le positive)
  unfold excess
  omega

theorem nearest_mono (le : s ≤ t) : nearest s ≤ nearest t := by
  unfold nearest
  rcases Nat.lt_or_eq_of_le (excess_mono le) with less | same
  · -- Rounding up in the lower range gets at most to the bottom of the next.
    have low : halfEven s (excess s) ≤ s / 2 ^ excess s + 1 := roundDiv_le s _
    have short := div_excess_lt s
    have high : t / 2 ^ excess t ≤ halfEven t (excess t) := le_roundDiv t _
    have full := le_div_excess (Nat.zero_lt_of_lt less)
    omega
  · rw [same]
    exact Nat.add_le_add_left (halfEven_mono _ le) _

/-- Zeros at the end of a number count towards its length. -/
theorem log2_mul_two_pow (positive : m ≠ 0) (k : Nat) : (m * 2 ^ k).log2 = m.log2 + k := by
  induction k with
  | zero => rw [Nat.pow_zero, Nat.mul_one, Nat.add_zero]
  | succ k ih =>
    have nonzero : m * 2 ^ k ≠ 0 :=
      Nat.mul_ne_zero positive (Nat.ne_zero_of_lt (Nat.two_pow_pos k))
    rw [Nat.pow_succ, ← Nat.mul_assoc, Nat.mul_comm _ 2, Nat.log2_two_mul nonzero, ih,
      Nat.add_assoc]

/-- A significand has no excess bits of its own. -/
theorem log2_lt_of_lt (short : m < 2 ^ 53) : m.log2 < 53 := by
  rcases Nat.eq_zero_or_pos m with rfl | positive
  · decide
  · exact (Nat.log2_lt (Nat.ne_zero_of_lt positive)).mpr short

theorem excess_units (n : Nat) : excess (units n) = scale n := by
  have short := log2_lt_of_lt (significand_lt n)
  unfold excess units
  rcases Nat.lt_or_ge (significand n) (2 ^ 52) with low | full
  · rw [scale_eq_zero low, Nat.pow_zero, Nat.mul_one]
    omega
  · have positive : significand n ≠ 0 := by omega
    have long := (Nat.le_log2 positive).mpr full
    rw [log2_mul_two_pow positive]
    omega

/-- Rounding moves no amount. -/
theorem nearest_units (n : Nat) : nearest (units n) = n := by
  -- The excess bits are the zeros of the scale, so nothing is lost with them.
  have kept := halfEven_mul (significand n) 0 (scale n)
  rw [Nat.zero_add, halfEven_zero] at kept
  unfold nearest
  rw [excess_units, units, kept, scale_mul_add_significand]

/-- A higher number is worth more. -/
theorem units_strictMono : StrictMono units := by
  intro n m less
  by_contra notLess
  -- Rounding would take the lesser worth back to the higher number.
  have back := nearest_mono (Nat.le_of_not_lt notLess)
  rw [nearest_units, nearest_units] at back
  exact absurd less (Nat.not_lt.mpr back)

/-! ## Short numbers -/

/-- A number is made of its scale and its significand. -/
theorem units_of_short (short : m < 2 ^ 53) (low : m < 2 ^ 52 → k = 0) :
    units (k * 2 ^ 52 + m) = m * 2 ^ k := by
  have made : scale (k * 2 ^ 52 + m) = k ∧ significand (k * 2 ^ 52 + m) = m := by
    unfold scale significand
    split <;> omega
  rw [units, made.1, made.2]

/-- Nothing is lost of a short number that is scaled. -/
theorem units_nearest_of_lt (short : m < 2 ^ 53) (k : Nat) :
    units (nearest (m * 2 ^ k)) = m * 2 ^ k := by
  rcases Nat.eq_zero_or_pos m with rfl | positive
  · rw [Nat.zero_mul]
    rfl
  have nonzero := Nat.ne_of_gt positive
  have lessBits := log2_lt_of_lt short
  obtain ⟨q, same⟩ : ∃ q, q = excess (m * 2 ^ k) := ⟨_, rfl⟩
  have bits := same
  rw [excess, log2_mul_two_pow nonzero] at bits
  -- The excess bits are among the zeros of the scale.
  have split : m * 2 ^ k = m * 2 ^ (k - q) * 2 ^ q := by
    rw [Nat.mul_assoc, ← Nat.pow_add, Nat.sub_add_cancel (by omega)]
  have kept := halfEven_mul (m * 2 ^ (k - q)) 0 q
  rw [Nat.zero_add, halfEven_zero, ← split] at kept
  have fits := div_excess_lt (m * 2 ^ k)
  have full (exceeds : 0 < q) := le_div_excess (s := m * 2 ^ k) (same ▸ exceeds)
  rw [← same, split, Nat.mul_div_cancel _ (Nat.two_pow_pos q)] at fits full
  rw [nearest, ← same, kept, units_of_short fits fun low => ?_, ← split]
  by_contra exceeds
  exact absurd (full (Nat.pos_of_ne_zero exceeds)) (Nat.not_le.mpr low)

theorem units_nearest (fits : m ≤ 2 ^ 53) (k : Nat) :
    units (nearest (m * 2 ^ k)) = m * 2 ^ k := by
  rcases Nat.lt_or_eq_of_le fits with short | rfl
  · exact units_nearest_of_lt short k
  · have one : 2 ^ 53 * 2 ^ k = 1 * 2 ^ (53 + k) := by rw [Nat.pow_add, Nat.one_mul]
    rw [one]
    exact units_nearest_of_lt (by decide) _

end ActionPlanning.Amount
