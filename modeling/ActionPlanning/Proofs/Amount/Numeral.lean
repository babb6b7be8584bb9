import ActionPlanning.Amount.Decimal
import ActionPlanning.Proofs.Amount.Quotient
import ActionPlanning.Proofs.Amount.Unsigned

/-!
# What a numeral names

A decimal numeral is worth a fraction of units, and it names the amount nearest to that worth. There
are two ways to this amount. A short number and a short power of ten are both held exactly, so one
product or quotient of amounts is rounded only once. Any other numeral is multiplied or divided out
in whole numbers and then rounded. Numerals of a magnitude far beyond the range are cut off before,
and they are nearest to infinity or to zero anyway. So whichever way is taken, numerals that are
worth the same name the same amount.

## Main definitions

* `unitsOfOne`: what one is worth.
* `Decimal.number`: the number of the amount nearest to a numeral.

## Main results

* `HasNumber.toNat_toBits_mul`, `HasNumber.toNat_toBits_div`: products and quotients of amounts.
* `Decimal.number_congr`: numerals that are worth the same have the same number.
* `Decimal.toNat_toBits_toAmount`: a numeral names the amount nearest to it.
-/

namespace ActionPlanning.Amount

open Float.Model

variable {a b : Amount} {m n k : Nat}

/-! ## Products and quotients of amounts -/

/-- What one is worth. -/
def unitsOfOne : Nat := 2 ^ 1074

theorem unitsOfOne_pos : 0 < unitsOfOne := by
  rw [unitsOfOne]
  positivity

/-- A finite amount that is not zero is unpacked as its number says. -/
theorem HasNumber.exists_unpack_eq (number : a.HasNumber n) (some : 0 < n) (finite : n < infinite) :
    ∃ positive, a.toModel.unpack = .finite .positive (significand n) (scale n - 1074) positive := by
  unfold HasNumber at number
  generalize a.toModel.unpack = x at number
  cases number with
  | zero => exact absurd some (Nat.lt_irrefl 0)
  | finite positive => exact ⟨positive, rfl⟩
  | infinity => exact absurd finite (Nat.lt_irrefl _)

/-- An amount that is worth much has a high scale and a full significand. -/
theorem full_of_le_units (much : 2 ^ k ≤ units n) (large : 53 ≤ k) :
    k < scale n + 53 ∧ 2 ^ 52 ≤ significand n := by
  have high : k < scale n + 53 := by
    by_contra low
    have little : units n < 2 ^ 53 * 2 ^ (k - 53) :=
      Nat.lt_of_lt_of_le (Nat.mul_lt_mul_of_pos_right (significand_lt n) (Nat.two_pow_pos _))
        (Nat.mul_le_mul_left _ (Nat.pow_le_pow_right Nat.two_pos (by omega)))
    rw [← Nat.pow_add, Nat.add_sub_cancel' large] at little
    exact absurd much (Nat.not_le.mpr little)
  refine ⟨high, ?_⟩
  -- Only at the bottom are significands short, and there no amount is worth this much.
  by_contra short
  have none := scale_eq_zero (Nat.not_le.mp short)
  omega

theorem scale_le (finite : n < infinite) : scale n ≤ 2045 := by
  unfold infinite at finite
  unfold scale
  omega

theorem pos_of_one_le (one : unitsOfOne ≤ units n) : 0 < n := by
  rcases Nat.eq_zero_or_pos n with rfl | some
  · exact absurd one (Nat.not_le.mpr unitsOfOne_pos)
  · exact some

/-- The product of finite amounts of at least one is the amount nearest to the product of their
worths. -/
theorem HasNumber.toNat_toBits_mul (first : a.HasNumber n) (second : b.HasNumber m)
    (finiteN : n < infinite) (finiteM : m < infinite) (oneN : unitsOfOne ≤ units n)
    (oneM : unitsOfOne ≤ units m) :
    (a * b).toBits.toNat = min (nearestDiv (units n * units m) unitsOfOne) infinite := by
  obtain ⟨positiveN, unpackN⟩ := first.exists_unpack_eq (pos_of_one_le oneN) finiteN
  obtain ⟨positiveM, unpackM⟩ := second.exists_unpack_eq (pos_of_one_le oneM) finiteM
  unfold unitsOfOne at oneN oneM
  obtain ⟨highN, fullN⟩ := full_of_le_units oneN (by decide)
  obtain ⟨highM, -⟩ := full_of_le_units oneM (by decide)
  have exponent : (scale n - 1074 : Int) + (scale m - 1074)
      = (scale n + scale m - 1074 : Nat) - 1074 := by omega
  have long : 2 ^ 52 ≤ significand n * significand m :=
    Nat.le_trans fullN (Nat.le_mul_of_pos_right _ positiveM)
  have product := toNat_pack_mul positiveN positiveM exponent long
  have worth : units n * units m
      = significand n * significand m * 2 ^ (scale n + scale m - 1074) * unitsOfOne := by
    rw [units, units, unitsOfOne, Nat.mul_assoc _ (2 ^ (scale n + scale m - 1074)), ← Nat.pow_add,
      Nat.sub_add_cancel (by omega), Nat.pow_add, Nat.mul_mul_mul_comm]
  rw [worth, nearestDiv_mul_self _ unitsOfOne_pos, ← product, ← unpackN, ← unpackM]
  rfl

/-- The quotient of finite amounts is the amount nearest to the quotient of their worths. -/
theorem HasNumber.toNat_toBits_div (first : a.HasNumber n) (second : b.HasNumber m)
    (someN : 0 < n) (someM : 0 < m) (finiteN : n < infinite) (finiteM : m < infinite)
    (close : scale m ≤ scale n + 1074) :
    (a / b).toBits.toNat = min (nearestDiv (units n * unitsOfOne) (units m)) infinite := by
  obtain ⟨positiveN, unpackN⟩ := first.exists_unpack_eq someN finiteN
  obtain ⟨positiveM, unpackM⟩ := second.exists_unpack_eq someM finiteM
  have exponent : (scale n - 1074 : Int) - (scale m - 1074)
      = (scale n + 1074 - scale m : Nat) - 1074 := by omega
  have quotient := toNat_pack_div positiveN positiveM exponent
  have worth : units n * unitsOfOne
      = significand n * 2 ^ (scale n + 1074 - scale m) * 2 ^ scale m := by
    rw [units, unitsOfOne, Nat.mul_assoc, Nat.mul_assoc, ← Nat.pow_add, ← Nat.pow_add,
      Nat.sub_add_cancel close]
  rw [worth, units, nearestDiv_mul _ _ (Nat.two_pow_pos _), ← quotient, ← unpackN, ← unpackM]
  rfl

/-- Each power of ten in the table is the amount of its worth. -/
theorem powerOfTen_spec (e : Fin 23) :
    (Float.exactlyRepresentablePowersOfTen[e]).toBits.toNat < infinite ∧
      units (Float.exactlyRepresentablePowersOfTen[e]).toBits.toNat = 10 ^ e.val * unitsOfOne := by
  revert e
  decide +kernel

/-- A whole number that fits a significand is the amount of that worth. -/
theorem toFloat_spec (positive : 0 < m) (short : m < 2 ^ 53) :
    ∃ n, HasNumber m.toUInt64.toFloat n ∧ n < infinite ∧ units n = m * unitsOfOne := by
  have worth := units_nearest_of_lt short 1074
  have finite : nearest (m * 2 ^ 1074) < infinite :=
    Nat.lt_of_le_of_lt (nearest_mono (Nat.mul_le_mul_right _ (Nat.le_of_lt short)))
      (by decide +kernel)
  have same : m.toUInt64.toNat = m := Nat.mod_eq_of_lt (Nat.lt_trans short (by decide))
  obtain ⟨m', k, left, rounded, number, fits, low⟩ := round_eq positive 1074
  have numbered := numbers_pack left fits low
  rw [number, Nat.min_eq_left (Nat.le_of_lt finite), ← rounded] at numbered
  refine ⟨nearest (m * 2 ^ 1074), ?_, finite, worth⟩
  have model : m.toUInt64.toFloat.toModel = pack (UnpackedFloat.round Format.binary64 .positive m
      ((1074 : Nat) - 1074)) := by
    change pack (UnpackedFloat.normalize Format.binary64 (m.toUInt64.toNat : Int) 0 .positive) = _
    rw [same, UnpackedFloat.normalize, Int.compare_eq_gt.mpr (Int.natCast_pos.mpr positive)]
    rfl
  unfold HasNumber
  rwa [model]

/-! ## Digits of a number -/

theorem lt_pow_digitCount (m : Nat) : m < 10 ^ digitCount m :=
  (Nat.length_toDigits_le_iff (by decide) Nat.length_toDigits_pos).mp (Nat.le_refl _)

theorem pow_digitCount_le (positive : 0 < m) : 10 ^ (digitCount m - 1) ≤ m := by
  rcases Nat.eq_zero_or_pos (digitCount m - 1) with one | more
  · rw [one, Nat.pow_zero]
    exact positive
  · by_contra less
    have fewer := (Nat.length_toDigits_le_iff (by decide) more).mpr (Nat.not_le.mp less)
    unfold digitCount at fewer more
    omega

/-! ## What a numeral is worth -/

namespace Decimal

/-- What a numeral is worth, as a fraction of units. -/
def numerator (d : Decimal) : Nat := d.digits * 10 ^ d.exponent.toNat * unitsOfOne

@[inherit_doc numerator]
def denominator (d : Decimal) : Nat := 10 ^ (-d.exponent).toNat

/-- The number of the amount that a numeral names. -/
def number (d : Decimal) : Nat := min (nearestDiv d.numerator d.denominator) infinite

theorem denominator_pos (d : Decimal) : 0 < d.denominator := Nat.pow_pos (by decide)

theorem number_zero (e : Int) : (⟨0, e⟩ : Decimal).number = 0 := by
  have nothing : (⟨0, e⟩ : Decimal).numerator = 0 := by
    rw [numerator, Nat.zero_mul, Nat.zero_mul]
  rw [number, nothing, nearestDiv_eq_zero (denominator_pos _), Nat.zero_min]

theorem number_natCast (m k : Nat) :
    (⟨m, k⟩ : Decimal).number = min (nearest (m * 10 ^ k * unitsOfOne)) infinite := by
  have noPlaces : (-(k : Int)).toNat = 0 := by omega
  rw [number, numerator, denominator, noPlaces, Nat.pow_zero, nearestDiv_one]
  rfl

theorem number_neg (m k : Nat) :
    (⟨m, -k⟩ : Decimal).number = min (nearestDiv (m * unitsOfOne) (10 ^ k)) infinite := by
  have noZeros : (-(k : Int)).toNat = 0 := by omega
  have places : (-(-(k : Int))).toNat = k := by omega
  rw [number, numerator, denominator, noZeros, places, Nat.pow_zero, Nat.mul_one]

/-- Numerals that are worth the same name the same amount. -/
theorem number_congr {c d : Decimal}
    (same : c.numerator * d.denominator = d.numerator * c.denominator) : c.number = d.number := by
  rw [number, number, nearestDiv_congr c.denominator_pos d.denominator_pos same]

/-- A numeral of at least `10 ^ 309` names infinity. -/
theorem number_eq_infinite {d : Decimal} (long : 10 ^ k ≤ d.digits) (high : 309 ≤ k + d.exponent) :
    d.number = infinite := by
  have quotient : 2 ^ (53 + 2045) ≤ d.numerator / d.denominator := by
    rw [Nat.le_div_iff_mul_le d.denominator_pos]
    calc 2 ^ (53 + 2045) * d.denominator ≤ 10 ^ 309 * unitsOfOne * d.denominator :=
          Nat.mul_le_mul_right _ (by decide +kernel)
      _ = 10 ^ (309 + (-d.exponent).toNat) * unitsOfOne := by
          rw [denominator, Nat.mul_right_comm, ← Nat.pow_add]
      _ ≤ 10 ^ (k + d.exponent.toNat) * unitsOfOne :=
          Nat.mul_le_mul_right _ (Nat.pow_le_pow_right (by decide) (by omega))
      _ ≤ d.numerator := by
          rw [Nat.pow_add]
          exact Nat.mul_le_mul_right _ (Nat.mul_le_mul_right _ long)
  exact Nat.min_eq_right (le_nearestDiv quotient)

theorem two_units_le : 2 * unitsOfOne ≤ 10 ^ 400 := by
  have few {i j : Nat} (short : i ≤ 3 * j) : 2 ^ i ≤ 10 ^ j :=
    calc 2 ^ i ≤ 2 ^ (3 * j) := Nat.pow_le_pow_right Nat.two_pos short
      _ = (2 ^ 3) ^ j := Nat.pow_mul 2 3 j
      _ ≤ 10 ^ j := Nat.pow_le_pow_left (by decide) j
  rw [unitsOfOne, ← pow_succ']
  exact few (i := 1074 + 1) (j := 400) (by decide)

/-- A numeral of less than `10 ^ -400` names zero. -/
theorem number_eq_zero {d : Decimal} (short : d.digits < 10 ^ k) (deep : k + 400 + d.exponent ≤ 0) :
    d.number = 0 := by
  have noZeros : d.exponent.toNat = 0 := by omega
  have little : 2 * d.numerator < d.denominator := by
    calc 2 * d.numerator = d.digits * (2 * unitsOfOne) := by
          rw [numerator, noZeros, Nat.pow_zero, Nat.mul_one, Nat.mul_left_comm]
      _ < 10 ^ k * (2 * unitsOfOne) :=
          Nat.mul_lt_mul_of_pos_right short (Nat.mul_pos Nat.two_pos unitsOfOne_pos)
      _ ≤ 10 ^ k * 10 ^ 400 := Nat.mul_le_mul_left _ two_units_le
      _ ≤ d.denominator := by
          rw [← Nat.pow_add]
          exact Nat.pow_le_pow_right (by decide) (by omega)
  rw [number, nearestDiv_eq_zero little, Nat.zero_min]

end Decimal

/-- A number times a power of ten is rounded to the nearest amount. -/
theorem toNat_pack_ofScientific (positive : 0 < m) (e : Int) :
    (UnpackedFloat.pack Format.binary64 (UnpackedFloat.ofScientific Format.binary64 m e)).toNat
      = (⟨m, e⟩ : Decimal).number := by
  unfold UnpackedFloat.ofScientific
  rw [dif_neg (Nat.ne_of_gt positive)]
  split
  -- Far beyond the range nothing is computed: there it is infinity or zero that is nearest.
  case isTrue high =>
    change 2048 < e at high
    have large : 309 ≤ ((0 : Nat) : Int) + e := by omega
    exact (Decimal.number_eq_infinite (d := ⟨m, e⟩) positive large).symm
  case isFalse notHigh =>
    split
    case isTrue low =>
      change e < -(2048 + (m.log2 : Int)) at low
      have short : m < 10 ^ (m.log2 + 1) :=
        Nat.lt_of_lt_of_le Nat.lt_log2_self (Nat.pow_le_pow_left (by decide) _)
      have deep : ((m.log2 + 1 : Nat) : Int) + 400 + e ≤ 0 := by omega
      exact (Decimal.number_eq_zero (d := ⟨m, e⟩) short deep).symm
    case isFalse notLow =>
      split
      case isTrue whole =>
        -- The digits are shifted first, so that the product is at least as long as a significand.
        have noPlaces : (-e).toNat = 0 := by omega
        have long : 2 ^ 52 ≤ m <<< 53 * 10 ^ e.toNat := by
          rw [Nat.shiftLeft_eq]
          refine Nat.le_trans ?_ (Nat.le_mul_of_pos_right _ (Nat.pow_pos (by decide)))
          exact Nat.le_trans (by decide) (Nat.le_mul_of_pos_left (2 ^ 53) positive)
        have product := toNat_pack_mul (m := m <<< 53) (n := 10 ^ e.toNat) (j := 1021)
          (by rw [Nat.shiftLeft_eq]; exact Nat.mul_pos positive (Nat.two_pow_pos _))
          (Nat.pow_pos (by decide)) (e := -53) (f := 0) (by decide) long
        refine product.trans ?_
        have worth : m <<< 53 * 10 ^ e.toNat * 2 ^ 1021 = m * 10 ^ e.toNat * unitsOfOne := by
          have parts : unitsOfOne = 2 ^ 53 * 2 ^ 1021 := by rw [unitsOfOne, ← Nat.pow_add]
          rw [Nat.shiftLeft_eq, parts, Nat.mul_right_comm m, Nat.mul_assoc]
        rw [worth, Decimal.number, Decimal.numerator, Decimal.denominator, noPlaces, Nat.pow_zero,
          nearestDiv_one]
      case isFalse fraction =>
        have noZeros : e.toNat = 0 := by omega
        have quotient := toNat_pack_div (m := m) (n := 10 ^ (-e).toNat) (i := 1074) positive
          (Nat.pow_pos (by decide)) (e := 0) (f := 0) (by decide)
        refine quotient.trans ?_
        rw [Decimal.number, Decimal.numerator, Decimal.denominator, noZeros, Nat.pow_zero,
          Nat.mul_one, unitsOfOne]

/-- A number and a power of ten that amounts hold exactly are multiplied or divided as amounts, and
only the result is rounded. -/
theorem toNat_toBits_short (positive : 0 < m) (short : m < 2 ^ 53) (k : Fin 23) :
    (m.toUInt64.toFloat / Float.exactlyRepresentablePowersOfTen[k]).toBits.toNat
        = min (nearestDiv (m * unitsOfOne) (10 ^ k.val)) infinite ∧
      (m.toUInt64.toFloat * Float.exactlyRepresentablePowersOfTen[k]).toBits.toNat
        = min (nearest (m * 10 ^ k.val * unitsOfOne)) infinite := by
  obtain ⟨n, number, finite, worth⟩ := toFloat_spec positive short
  obtain ⟨finitePower, worthPower⟩ := powerOfTen_spec k
  have numberPower := Unsigned.hasNumber (Nat.le_of_lt finitePower)
  have one : unitsOfOne ≤ units n := worth ▸ Nat.le_mul_of_pos_left _ positive
  have onePower := Nat.le_mul_of_pos_left unitsOfOne (Nat.pow_pos (n := k.val) (Nat.zero_lt_succ 9))
  rw [← worthPower] at onePower
  have high := (full_of_le_units (k := 1074) one (by decide)).1
  constructor
  · have close := scale_le finitePower
    rw [number.toNat_toBits_div numberPower (pos_of_one_le one) (pos_of_one_le onePower) finite
      finitePower (by omega), worth, worthPower, nearestDiv_mul _ _ unitsOfOne_pos]
  · rw [number.toNat_toBits_mul numberPower finite finitePower one onePower, worth, worthPower,
      Nat.mul_mul_mul_comm, ← Nat.mul_assoc, nearestDiv_mul_self _ unitsOfOne_pos]

/-- A number times a power of ten is rounded to the nearest amount, by whatever way. -/
theorem toNat_toBits_ofScientific (positive : 0 < m) (below : Bool) (k : Nat) :
    (Float.ofScientific m below k).toBits.toNat
      = (⟨m, if below then -k else k⟩ : Decimal).number := by
  unfold Float.ofScientific
  split
  case isTrue small =>
    obtain ⟨quotient, product⟩ := toNat_toBits_short positive small.1 ⟨k, by omega⟩
    cases below with
    | true => exact quotient.trans (Decimal.number_neg m k).symm
    | false => exact product.trans (Decimal.number_natCast m k).symm
  case isFalse =>
    refine (toNat_pack_ofScientific positive _).trans ?_
    cases below with
    | true => exact congrArg (fun e => (⟨m, e⟩ : Decimal).number) Int.negOfNat_eq
    | false => rfl

namespace Decimal

/-- A numeral names the amount that is nearest to it. -/
theorem toNat_toBits_toAmount (d : Decimal) : d.toAmount.toBits.toNat = d.number := by
  obtain ⟨m, e⟩ := d
  rw [toAmount]
  split
  case isTrue nothing =>
    obtain rfl : m = 0 := nothing
    exact (number_zero e).symm
  case isFalse something =>
    have positive : 0 < m := Nat.pos_of_ne_zero something
    have some : 0 < digitCount m := Nat.length_toDigits_pos
    dsimp only
    split
    case isTrue high =>
      change 310 < e + digitCount m at high
      have large : 309 ≤ ((digitCount m - 1 : Nat) : Int) + e := by omega
      have beyond : 309 ≤ ((0 : Nat) : Int) + (400 : Nat) := by decide
      have infinity : (Float.ofScientific 1 false 400).toBits.toNat = infinite :=
        (toNat_toBits_ofScientific Nat.one_pos false 400).trans
          (number_eq_infinite (d := ⟨1, (400 : Nat)⟩) (Nat.le_refl 1) beyond)
      exact infinity.trans
        (number_eq_infinite (d := ⟨m, e⟩) (pow_digitCount_le positive) large).symm
    case isFalse notHigh =>
      split
      case isTrue low =>
        change e + digitCount m < -400 at low
        have deep : (digitCount m : Int) + 400 + e ≤ 0 := by omega
        exact (number_eq_zero (d := ⟨m, e⟩) (lt_pow_digitCount m) deep).symm
      case isFalse notLow =>
        have exponent : (if decide (e < 0) = true then -(e.natAbs : Int) else e.natAbs) = e := by
          simp only [decide_eq_true_eq]
          split <;> omega
        rw [toNat_toBits_ofScientific positive, exponent]

end Decimal

end ActionPlanning.Amount
