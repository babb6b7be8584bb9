import ActionPlanning.Proofs.Amount.Numbering
import ActionPlanning.Proofs.Amount.Shifting

/-!
# Sums of amounts

Two amounts are added by adding their significands, spread out to a common scale, and rounding the
sum. So the sum of two amounts is the amount nearest to their joint worth, or infinity where that
lies beyond all finite amounts.

## Main definitions

* `spread`: the significands of two amounts, spread out to a common scale and added.

## Main results

* `round_eq`: rounding goes to the nearest amount.
* `toNat_pack`: packing goes to the bits of a number, or to those of infinity.
* `Numbers.add`: the sum of two amounts.
-/

namespace ActionPlanning.Amount

open Float.Model

variable {m n j k q s : Nat}

/-! ## Rounding -/

theorem nearest_pos (positive : 0 < s) : 0 < nearest s :=
  Nat.lt_of_lt_of_le (by decide : 0 < nearest 1) (nearest_mono positive)

/-- Rounding a number that is scaled no further than its excess bits goes to the nearest amount,
given by its significand and its scale. -/
theorem roundWithAccuracy_eq (positive : 0 < m) (fine : j ≤ excess (m * 2 ^ j)) :
    ∃ (m' k : Nat) (positive' : 0 < m'),
      UnpackedFloat.roundWithAccuracy Format.binary64 .positive m (j - 1074) .exact
        = .finite .positive m' (k - 1074) positive' ∧
      k * 2 ^ 52 + m' = nearest (m * 2 ^ j) ∧ m' < 2 ^ 53 ∧ (m' < 2 ^ 52 → k = 0) := by
  have some := nearest_pos (Nat.mul_pos positive (Nat.two_pow_pos j))
  have whole := roundWithAccuracy_finite Nat.one_pos (s := m) (j := j)
  rw [Nat.div_one, Nat.mod_one, nearestDiv_one] at whole
  exact whole fine some

theorem round_eq (positive : 0 < m) (j : Nat) :
    ∃ (m' k : Nat) (positive' : 0 < m'),
      UnpackedFloat.round Format.binary64 .positive m (j - 1074)
        = .finite .positive m' (k - 1074) positive' ∧
      k * 2 ^ 52 + m' = nearest (m * 2 ^ j) ∧ m' < 2 ^ 53 ∧ (m' < 2 ^ 52 → k = 0) := by
  simp only [UnpackedFloat.round, UnpackedFloat.decreaseExponent,
    targetExponent_eq (j := j) fun none => absurd none (Nat.ne_of_gt positive)]
  -- A number that is scaled finely enough is rounded as it is.
  rcases Nat.le_total j (excess (m * 2 ^ j)) with fine | coarse
  · have none : ((j - 1074 : Int) - (excess (m * 2 ^ j) - 1074)).toNat = 0 := by omega
    have same := roundWithAccuracy_eq positive fine
    simpa only [none, Nat.shiftLeft_zero, Int.natCast_zero, Int.sub_zero] using same
  · -- The number is spread out first, until it is scaled by its excess bits.
    obtain ⟨q, spread⟩ := Nat.exists_eq_add_of_le coarse
    have worth : m * 2 ^ q * 2 ^ excess (m * 2 ^ j) = m * 2 ^ j := by
      rw [Nat.mul_assoc, ← Nat.pow_add, Nat.add_comm q, ← spread]
    have same := roundWithAccuracy_eq (Nat.mul_pos positive (Nat.two_pow_pos q))
      (Nat.le_of_eq (congrArg excess worth.symm))
    rw [worth] at same
    have shift : ((j - 1074 : Int) - (excess (m * 2 ^ j) - 1074)).toNat = q := by omega
    have exponent : (j - 1074 : Int) - q = excess (m * 2 ^ j) - 1074 := by omega
    simpa only [shift, Nat.shiftLeft_eq, exponent] using same

/-! ## Packing -/

theorem toNat_packComponents (exponent : BitVec 11) (mantissa : BitVec 52) :
    (UnpackedFloat.packComponents Format.binary64 .positive exponent mantissa).toNat
      = exponent.toNat * 2 ^ 52 + mantissa.toNat := by
  have disjoint := Nat.two_pow_add_eq_or_of_lt mantissa.isLt exponent.toNat
  change ((0#1 ++ exponent) ++ mantissa).toNat = _
  rw [BitVec.toNat_append, BitVec.toNat_append, Nat.shiftLeft_eq, Nat.shiftLeft_eq,
    BitVec.toNat_ofNat, Nat.zero_mod, Nat.zero_mul, Nat.zero_or, Nat.mul_comm, ← disjoint]

/-- A significand with its scale is packed into the bits of its number, or of infinity if the
number is too high. -/
theorem toNat_pack (positive : 0 < m) (short : m < 2 ^ 53) (low : m < 2 ^ 52 → k = 0) :
    (UnpackedFloat.pack Format.binary64 (.finite .positive m (k - 1074) positive)).toNat
      = min (k * 2 ^ 52 + m) infinite := by
  have bias : ((k - 1074 : Int) + (Format.binary64.exponentBias : Nat)
      + (Format.binary64.mantissaBitsWithoutImplicit : Nat)).toNat = k + 1 := by
    change ((k - 1074 : Int) + 1023 + 52).toNat = k + 1
    omega
  have nonzero := Nat.ne_of_gt positive
  simp only [UnpackedFloat.pack, bias]
  -- The number is too high, or its significand is full, or it is low and has no scale.
  split
  case isTrue high =>
    change 2048 ≤ k + 1 + 1 at high
    change infinite = _
    unfold infinite
    omega
  case isFalse fits =>
    change ¬ 2048 ≤ k + 1 + 1 at fits
    split
    case isTrue normal =>
      change m.log2 + 1 = 53 at normal
      have full := (Nat.le_log2 (k := 52) nonzero).mp (by omega)
      rw [toNat_packComponents, BitVec.toNat_ofNat, BitVec.toNat_ofNat]
      unfold infinite
      omega
    case isFalse subnormal =>
      change ¬ m.log2 + 1 = 53 at subnormal
      have few := log2_lt_of_lt short
      have small := (Nat.log2_lt (k := 52) nonzero).mp (by omega)
      rw [toNat_packComponents, BitVec.toNat_ofNat, BitVec.toNat_ofNat, low small]
      unfold infinite
      omega

theorem numbers_pack (positive : 0 < m) (short : m < 2 ^ 53) (low : m < 2 ^ 52 → k = 0) :
    Numbers (min (k * 2 ^ 52 + m) infinite)
      (Float.Model.pack (.finite .positive m (k - 1074) positive)).unpack := by
  have packed := toNat_pack positive short low
  -- What was packed has the bits of an amount, so it is unpacked as its number says.
  rw [← packed]
  exact numbers_unpack (packed ▸ Nat.min_le_right _ _)

/-! ## Adding -/

variable {x y : UnpackedFloat}

theorem Numbers.le_infinite (number : Numbers n x) : n ≤ infinite := by
  cases number with
  | zero => exact Nat.zero_le _
  | finite _ below => exact Nat.le_of_lt below
  | infinity => exact Nat.le_refl _

/-- Packing an amount keeps its number. -/
theorem Numbers.pack (number : Numbers n x) : Numbers n (Float.Model.pack x).unpack := by
  cases number with
  | zero sign => cases sign <;> exact .zero _
  | finite positive below =>
    have packed := numbers_pack positive (significand_lt n) scale_eq_zero
    rwa [scale_mul_add_significand, Nat.min_eq_left (Nat.le_of_lt below)] at packed
  | infinity => exact .infinity

theorem nearest_units_add_zero (number : Numbers n x) :
    min (nearest (units n + units 0)) infinite = n := by
  rw [show units 0 = 0 from rfl, Nat.add_zero, nearest_units, Nat.min_eq_left number.le_infinite]

theorem nearest_units_infinite_add (s : Nat) :
    min (nearest (units infinite + s)) infinite = infinite := by
  have more := nearest_mono (Nat.le_add_right (units infinite) s)
  rw [nearest_units] at more
  exact Nat.min_eq_right more

/-- The significands of two amounts, spread out to the lesser of their scales and added. -/
def spread (n m : Nat) : Nat :=
  significand n * 2 ^ (scale n - min (scale n) (scale m))
    + significand m * 2 ^ (scale m - min (scale n) (scale m))

/-- Spread significands add up to the joint worth. -/
theorem spread_mul (n m : Nat) :
    spread n m * 2 ^ min (scale n) (scale m) = units n + units m := by
  rw [spread, Nat.add_mul, Nat.mul_assoc, Nat.mul_assoc, ← Nat.pow_add, ← Nat.pow_add,
    Nat.sub_add_cancel (Nat.min_le_left _ _), Nat.sub_add_cancel (Nat.min_le_right _ _)]
  rfl

theorem spread_pos (positive : 0 < significand n) : 0 < spread n m :=
  Nat.add_pos_left (Nat.mul_pos positive (Nat.two_pow_pos _)) _

/-- Finite amounts are added by rounding the sum of their spread significands. -/
theorem add_finite (positiveN : 0 < significand n) (positiveM : 0 < significand m) :
    UnpackedFloat.add Format.binary64
        (.finite .positive (significand n) (scale n - 1074) positiveN)
        (.finite .positive (significand m) (scale m - 1074) positiveM)
      = UnpackedFloat.round Format.binary64 .positive (spread n m)
          ((min (scale n) (scale m) : Nat) - 1074) := by
  have exponent : min (scale n - 1074 : Int) (scale m - 1074)
      = ((min (scale n) (scale m) : Nat) : Int) - 1074 := by omega
  have shift (j : Nat) : ((j - 1074 : Int) - (((min (scale n) (scale m) : Nat) : Int) - 1074)).toNat
      = j - min (scale n) (scale m) := by omega
  have sum : ((significand n * 2 ^ (scale n - min (scale n) (scale m)) : Nat) : Int)
      + (significand m * 2 ^ (scale m - min (scale n) (scale m)) : Nat) = (spread n m : Nat) :=
    (Int.natCast_add _ _).symm
  have sign : compare ((spread n m : Nat) : Int) 0 = .gt :=
    Int.compare_eq_gt.mpr (Int.natCast_pos.mpr (spread_pos positiveN))
  simp only [UnpackedFloat.add, UnpackedFloat.decreaseExponent, exponent, shift, sum, sign,
    Nat.shiftLeft_eq, UnpackedFloat.Sign.apply, UnpackedFloat.normalize, Int.toNat_natCast]

/-- The sum of two amounts is the amount nearest to their joint worth, or infinity. -/
theorem Numbers.add (first : Numbers n x) (second : Numbers m y) :
    Numbers (min (nearest (units n + units m)) infinite)
      (Float.Model.pack (UnpackedFloat.add Format.binary64 x y)).unpack := by
  -- Infinity stays what it is whatever is added, and so does any amount if zero is added.
  cases first with
  | infinity =>
    rw [nearest_units_infinite_add]
    cases second <;> exact Numbers.pack .infinity
  | zero signX =>
    rw [Nat.add_comm, nearest_units_add_zero second]
    refine Numbers.pack ?_
    cases second with
    | zero signY => cases signX <;> cases signY <;> exact .zero _
    | finite positive below => exact .finite positive below
    | infinity => exact .infinity
  | finite positiveX belowX =>
    cases second with
    | zero =>
      rw [nearest_units_add_zero (.finite positiveX belowX)]
      exact Numbers.pack (.finite positiveX belowX)
    | infinity =>
      rw [Nat.add_comm, nearest_units_infinite_add]
      exact Numbers.pack .infinity
    | finite positiveY belowY =>
      obtain ⟨m', k, left, rounded, number, short, low⟩ :=
        round_eq (spread_pos positiveX) (min (scale n) (scale m))
      rw [add_finite, rounded, ← spread_mul, ← number]
      exact numbers_pack left short low

end ActionPlanning.Amount
