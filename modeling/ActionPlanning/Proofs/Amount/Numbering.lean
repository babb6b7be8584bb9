import ActionPlanning.Amount.Order
import ActionPlanning.Proofs.Amount.Rounding
import Mathlib

/-!
# Numbers of amounts

The bits of an amount that is not negative, read as a number, say which amount it is: the
significand and the scale of a finite one follow from the number, and infinity has the greatest
number of all. The negative zero counts as zero. Amounts compare as their numbers do.

## Main definitions

* `Numbers`: what is unpacked from an amount with some number.

## Main results

* `numbers_unpack`: bits up to those of infinity are unpacked as their number says.
* `exists_numbers`: whatever compares as not negative has a number.
* `Numbers.le_iff`: amounts compare as their numbers do.
-/

namespace ActionPlanning.Amount

open Float.Model

/-- The number of infinity, the greatest number that an amount has. -/
def infinite : Nat := 2047 * 2 ^ 52

/-- What is unpacked from the bits of an amount that is not negative, by the number of the
amount. Both zeros have the number zero. -/
inductive Numbers : Nat → UnpackedFloat → Prop
  | zero (sign : UnpackedFloat.Sign) : Numbers 0 (.zero sign)
  | finite {n : Nat} (positive : 0 < significand n) : n < infinite →
    Numbers n (.finite .positive (significand n) (scale n - 1074) positive)
  | infinity : Numbers infinite (.infinity .positive)

theorem Numbers.of_eq {n m : Nat} {e : Int} {positive : 0 < m} (sameMantissa : significand n = m)
    (sameExponent : scale n - 1074 = e) (finite : n < infinite) :
    Numbers n (.finite .positive m e positive) := by
  subst sameMantissa sameExponent
  exact .finite positive finite

/-- The leading one that the bits leave out counts for a power of two. -/
theorem toNat_leadingOne {width : Nat} (rest : BitVec width) :
    (1#1 ++ rest).toNat = 2 ^ width + rest.toNat := by
  have disjoint := Nat.two_pow_add_eq_or_of_lt rest.isLt 1
  rw [Nat.mul_one] at disjoint
  rw [BitVec.toNat_append, disjoint, Nat.shiftLeft_eq, BitVec.toNat_ofNat, Nat.mod_eq_of_lt
    Nat.one_lt_two, Nat.one_mul]

section

variable (bits : BitVec Format.binary64.numBits)

theorem toNat_unpackMantissa : (UnpackedFloat.unpackMantissa bits).toNat = bits.toNat % 2 ^ 52 := by
  simp only [UnpackedFloat.unpackMantissa, BitVec.toNat_cast, BitVec.extractLsb_toNat,
    Nat.shiftRight_zero]

theorem toNat_unpackExponent :
    (UnpackedFloat.unpackExponent bits).toNat = bits.toNat / 2 ^ 52 % 2 ^ 11 := by
  simp only [UnpackedFloat.unpackExponent, BitVec.toNat_cast, BitVec.extractLsb_toNat,
    Nat.shiftRight_eq_div_pow]

theorem unpackMantissa_eq_zero_iff :
    UnpackedFloat.unpackMantissa bits = 0#_ ↔ bits.toNat % 2 ^ 52 = 0 := by
  rw [← BitVec.toNat_inj, toNat_unpackMantissa]
  rfl

theorem unpackExponent_eq_zero_iff :
    UnpackedFloat.unpackExponent bits = 0#_ ↔ bits.toNat / 2 ^ 52 % 2 ^ 11 = 0 := by
  rw [← BitVec.toNat_inj, toNat_unpackExponent]
  rfl

theorem unpackExponent_eq_top_iff :
    UnpackedFloat.unpackExponent bits = -1#_ ↔ bits.toNat / 2 ^ 52 % 2 ^ 11 = 2047 := by
  rw [← BitVec.toNat_inj, toNat_unpackExponent]
  rfl

/-- The sign is the highest bit. -/
theorem ofBitVec_unpackSign :
    UnpackedFloat.Sign.ofBitVec (UnpackedFloat.unpackSign bits)
      = if 2 ^ 63 ≤ bits.toNat then .negative else .positive := by
  have clear_iff : UnpackedFloat.unpackSign bits = 0#1 ↔ ¬ 2 ^ 63 ≤ bits.toNat := by
    have size : bits.toNat < 2 ^ 64 := bits.isLt
    rw [← BitVec.toNat_inj, UnpackedFloat.unpackSign, BitVec.toNat_cast, BitVec.extractLsb_toNat,
      Nat.shiftRight_eq_div_pow]
    change bits.toNat / 2 ^ 63 % 2 = 0 ↔ _
    omega
  rw [UnpackedFloat.Sign.ofBitVec]
  by_cases set : 2 ^ 63 ≤ bits.toNat
  · rw [if_neg (mt clear_iff.mp (not_not.mpr set)), if_pos set]
  · rw [if_pos (clear_iff.mpr set), if_neg set]

end

variable {bits : BitVec Format.binary64.numBits} {n m : Nat} {x y : UnpackedFloat}

/-- Bits up to those of infinity are unpacked as their number says. -/
theorem numbers_unpack (within : bits.toNat ≤ infinite) :
    Numbers bits.toNat (UnpackedFloat.unpack Format.binary64 bits) := by
  have bias : ((Format.binary64.exponentBias : Nat) : Int) = 1023 := rfl
  have width : ((Format.binary64.mantissaBitsWithoutImplicit : Nat) : Int) = 52 := rfl
  have sign : UnpackedFloat.Sign.ofBitVec (UnpackedFloat.unpackSign bits) = .positive := by
    rw [ofBitVec_unpackSign, if_neg]
    unfold infinite at within
    omega
  unfold infinite at within
  unfold UnpackedFloat.unpack
  simp only [sign]
  split
  case isTrue top =>
    rw [unpackExponent_eq_top_iff] at top
    -- Only infinity is left, since anything behind it has greater bits.
    have same : bits.toNat = infinite := by
      unfold infinite
      omega
    have nothing : bits.toNat % 2 ^ 52 = 0 := by rw [same]; rfl
    rw [if_pos ((unpackMantissa_eq_zero_iff bits).mpr nothing), same]
    exact .infinity
  case isFalse notTop =>
    rw [unpackExponent_eq_top_iff] at notTop
    split
    case isTrue bottom =>
      rw [bottom, BitVec.toNat_ofNat]
      rw [unpackExponent_eq_zero_iff] at bottom
      split
      case isTrue nothing =>
        rw [unpackMantissa_eq_zero_iff] at nothing
        rw [show bits.toNat = 0 by omega]
        exact .zero _
      case isFalse =>
        -- Without an exponent the mantissa is the significand, and there is no scale.
        refine .of_eq ?_ ?_ ?_
        · rw [toNat_unpackMantissa]
          unfold significand
          split <;> omega
        · unfold scale
          rw [bias, width]
          omega
        · unfold infinite
          omega
    case isFalse above =>
      rw [unpackExponent_eq_zero_iff] at above
      -- With an exponent, the significand has a leading one that is not among the bits.
      refine .of_eq ?_ ?_ ?_
      · rw [toNat_leadingOne, toNat_unpackMantissa]
        change _ = 2 ^ 52 + bits.toNat % 2 ^ 52
        unfold significand
        split <;> omega
      · unfold scale
        rw [bias, width, toNat_unpackExponent]
        omega
      · unfold infinite
        omega

/-- Whatever compares as not negative has a number: the bits, but for the negative zero. -/
theorem exists_numbers
    (nonneg : (UnpackedFloat.zero .positive).le (UnpackedFloat.unpack Format.binary64 bits)) :
    ∃ n, Numbers n (UnpackedFloat.unpack Format.binary64 bits) ∧
      (bits.toNat = n ∨ n = 0 ∧ 2 ^ 63 ≤ bits.toNat) := by
  by_cases within : bits.toNat ≤ infinite
  · exact ⟨_, numbers_unpack within, .inl rfl⟩
  · have size : bits.toNat < 2 ^ 64 := bits.isLt
    unfold infinite at within
    -- Bits beyond those of infinity belong to what is no number, or is less than nothing, or to
    -- the negative zero; the first two do not compare as not negative.
    revert nonneg
    unfold UnpackedFloat.unpack
    simp only [ofBitVec_unpackSign]
    split
    case isTrue top =>
      rw [unpackExponent_eq_top_iff] at top
      split
      case isTrue nothing =>
        rw [unpackMantissa_eq_zero_iff] at nothing
        rw [if_pos (by omega)]
        exact fun nonneg => Bool.noConfusion nonneg
      case isFalse => exact fun nonneg => Bool.noConfusion nonneg
    case isFalse finite =>
      rw [unpackExponent_eq_top_iff] at finite
      have negative : 2 ^ 63 ≤ bits.toNat := by omega
      rw [if_pos negative]
      split
      case isTrue =>
        split
        case isTrue => exact fun _ => ⟨_, .zero _, .inr ⟨rfl, negative⟩⟩
        case isFalse => exact fun nonneg => Bool.noConfusion nonneg
      case isFalse => exact fun nonneg => Bool.noConfusion nonneg

/-- Scale and significand are compared like the numbers they make up. -/
theorem le_iff_scale :
    n ≤ m ↔ scale n < scale m ∨ scale n = scale m ∧ significand n ≤ significand m := by
  unfold scale significand
  split <;> split <;> omega

/-- Amounts compare as their numbers do. -/
theorem Numbers.le_iff (first : Numbers n x) (second : Numbers m y) :
    x.le y = true ↔ n ≤ m := by
  cases first with
  | zero =>
    cases second <;> exact ⟨fun _ => Nat.zero_le _, fun _ => rfl⟩
  | finite positive below =>
    cases second with
    | zero =>
      refine ⟨fun le => Bool.noConfusion le, fun le => ?_⟩
      rw [Nat.le_zero.mp le] at positive
      exact absurd positive (by decide)
    | finite =>
      rw [le_iff_scale]
      simp only [UnpackedFloat.le, UnpackedFloat.compare, Option.any_some,
        Ordering.isLE_then_iff_or, Int.compare_eq_lt, Int.compare_eq_eq, Nat.isLE_compare]
      omega
    | infinity => exact ⟨fun _ => below.le, fun _ => rfl⟩
  | infinity =>
    cases second with
    | zero => exact ⟨fun le => Bool.noConfusion le, fun le => absurd le (by decide)⟩
    | finite _ below => exact ⟨fun le => Bool.noConfusion le, fun le => absurd below le.not_gt⟩
    | infinity => exact ⟨fun _ => le_rfl, fun _ => rfl⟩

end ActionPlanning.Amount
