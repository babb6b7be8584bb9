import ActionPlanning.Action
import ActionPlanning.Proofs.Amount.Sum
import ActionPlanning.Proofs.Search.Cost

/-!
# Amounts as costs

Amounts that are not negative have all that a search relies on, although their addition rounds and
may overflow to infinity: they compare as their numbers do, a sum is the nearest amount to the
joint worth, and the total order in which amounts are queued agrees with their numbers.

## Main results

* `Amount.le_of_totalLe`: what is queued first is no greater.
* `Action.costIn_nonneg`: the price of an action is never negative.
-/

namespace ActionPlanning

namespace Amount

open Float.Model

variable {a b c : Amount} {n m : Nat}

/-- The number of an amount that is not negative. -/
def HasNumber (a : Amount) (n : Nat) : Prop := Numbers n a.toModel.unpack

theorem le_iff_unpack : a ≤ b ↔ a.toModel.unpack.le b.toModel.unpack = true :=
  decide_eq_true_iff

theorem exists_hasNumber (nonneg : 0 ≤ a) :
    ∃ n, a.HasNumber n ∧ (a.toBits.toNat = n ∨ n = 0 ∧ 2 ^ 63 ≤ a.toBits.toNat) :=
  exists_numbers (le_iff_unpack.mp nonneg)

theorem HasNumber.le_iff (first : a.HasNumber n) (second : b.HasNumber m) : a ≤ b ↔ n ≤ m :=
  le_iff_unpack.trans (Numbers.le_iff first second)

theorem HasNumber.nonneg (number : a.HasNumber n) : 0 ≤ a :=
  (HasNumber.le_iff (a := 0) (.zero .positive) number).mpr (Nat.zero_le n)

theorem HasNumber.add (first : a.HasNumber n) (second : b.HasNumber m) :
    (a + b).HasNumber (min (nearest (units n + units m)) infinite) :=
  Numbers.add first second

theorem toNat_orderKey (a : Amount) :
    a.orderKey.toNat = if 2 ^ 63 ≤ a.toBits.toNat then 2 ^ 64 - 1 - a.toBits.toNat
      else a.toBits.toNat + 2 ^ 63 := by
  have negative : a.isNegative = decide (2 ^ 63 ≤ a.toBits.toNat) := rfl
  rw [orderKey, negative]
  simp only [decide_eq_true_eq]
  split
  case isTrue =>
    rw [UInt64.toNat_not]
    rfl
  case isFalse low =>
    -- The sign bit is not among the bits, so it adds to them.
    have high : (a.toBits.toNat ^^^ 2 ^ 63) / 2 ^ 63 = 1 := by
      rw [Nat.xor_div_two_pow, Nat.div_eq_of_lt (Nat.not_le.mp low)]
      rfl
    have rest : (a.toBits.toNat ^^^ 2 ^ 63) % 2 ^ 63 = a.toBits.toNat := by
      rw [Nat.xor_mod_two_pow, Nat.mod_self, Nat.xor_zero, Nat.mod_eq_of_lt (Nat.not_le.mp low)]
    rw [UInt64.toNat_xor]
    change a.toBits.toNat ^^^ 2 ^ 63 = _
    omega

/-- What is queued first is no greater. -/
theorem le_of_totalLe (nonnegA : 0 ≤ a) (nonnegB : 0 ≤ b) (queued : a.totalLe b = true) :
    a ≤ b := by
  obtain ⟨n, numberA, bitsA⟩ := exists_hasNumber nonnegA
  obtain ⟨m, numberB, bitsB⟩ := exists_hasNumber nonnegB
  have boundA := Numbers.le_infinite numberA
  have boundB := Numbers.le_infinite numberB
  rw [numberA.le_iff numberB]
  rw [totalLe_iff, UInt64.le_iff_toNat_le, toNat_orderKey, toNat_orderKey] at queued
  unfold infinite at boundA boundB
  -- Keys are in the order of the bits, except that the negative zero comes before all others.
  split at queued <;> split at queued <;> omega

/-- Whatever is a number and not less than zero is not negative. -/
theorem nonneg_of_not_needsMending (good : Action.needsMending a = false) : 0 ≤ a := by
  obtain ⟨number, notLess⟩ := Bool.or_eq_false_iff.mp good
  have number : a.toModel.unpack.isNaN = false := number
  have notLess : a.toModel.unpack.lt (.zero .positive) = false :=
    Bool.eq_false_iff.mpr fun less =>
      of_decide_eq_false notLess (decide_eq_true_iff.mpr less)
  rw [le_iff_unpack]
  change (UnpackedFloat.zero .positive).le a.toModel.unpack = true
  -- What is left are zero and whatever is positive.
  generalize a.toModel.unpack = x at number notLess ⊢
  cases x with
  | notANumber => exact Bool.noConfusion number
  | zero => rfl
  | infinity sign => cases sign <;> first | rfl | exact Bool.noConfusion notLess
  | finite sign => cases sign <;> first | rfl | exact Bool.noConfusion notLess

/-- What is above an amount that is not negative is not negative either. -/
theorem HasNumber.nonneg_of_le (number : a.HasNumber n) (le : a ≤ b) : 0 ≤ b := by
  rw [le_iff_unpack] at le ⊢
  change (UnpackedFloat.zero .positive).le b.toModel.unpack = true
  generalize b.toModel.unpack = y at le ⊢
  unfold HasNumber at number
  generalize a.toModel.unpack = x at number le
  cases y with
  | notANumber => cases number <;> exact Bool.noConfusion le
  | zero => rfl
  | infinity sign => cases sign <;> cases number <;> first | rfl | exact Bool.noConfusion le
  | finite sign => cases sign <;> cases number <;> first | rfl | exact Bool.noConfusion le

end Amount

/-- The price of an action is never negative. -/
theorem Action.costIn_nonneg (a : Action) (state : WorldState) : 0 ≤ a.costIn state := by
  unfold costIn
  dsimp only
  split
  case isTrue => exact (Amount.HasNumber.nonneg (n := 0) (.zero .positive))
  case isFalse good => exact Amount.nonneg_of_not_needsMending (Bool.eq_false_iff.mpr good)

namespace Search

/-- Amounts have all that a search relies on, as their additions round monotonically. -/
instance : LawfulCost Amount where
  le_total nonnegA nonnegB := by
    obtain ⟨n, numberA, -⟩ := Amount.exists_hasNumber nonnegA
    obtain ⟨m, numberB, -⟩ := Amount.exists_hasNumber nonnegB
    rw [numberA.le_iff numberB, numberB.le_iff numberA]
    exact Nat.le_total n m
  le_trans nonneg ab bc := by
    obtain ⟨n, numberA, -⟩ := Amount.exists_hasNumber nonneg
    obtain ⟨m, numberB, -⟩ := Amount.exists_hasNumber (numberA.nonneg_of_le ab)
    obtain ⟨k, numberC, -⟩ := Amount.exists_hasNumber (numberB.nonneg_of_le bc)
    rw [numberA.le_iff numberB] at ab
    rw [numberB.le_iff numberC] at bc
    exact (numberA.le_iff numberC).mpr (Nat.le_trans ab bc)
  zero_le_zero := Amount.HasNumber.nonneg (n := 0) (.zero .positive)
  add_le_add nonnegA nonnegC ab cd := by
    obtain ⟨n, numberA, -⟩ := Amount.exists_hasNumber nonnegA
    obtain ⟨m, numberB, -⟩ := Amount.exists_hasNumber (numberA.nonneg_of_le ab)
    obtain ⟨k, numberC, -⟩ := Amount.exists_hasNumber nonnegC
    obtain ⟨l, numberD, -⟩ := Amount.exists_hasNumber (numberC.nonneg_of_le cd)
    rw [numberA.le_iff numberB] at ab
    rw [numberC.le_iff numberD] at cd
    rw [(numberA.add numberC).le_iff (numberB.add numberD)]
    -- Greater terms are worth more together, and rounding keeps the order.
    have worth := Nat.add_le_add (Amount.units_strictMono.monotone ab)
      (Amount.units_strictMono.monotone cd)
    exact min_le_min_right _ (Amount.nearest_mono worth)
  le_add nonnegA nonnegB := by
    obtain ⟨n, numberA, -⟩ := Amount.exists_hasNumber nonnegA
    obtain ⟨m, numberB, -⟩ := Amount.exists_hasNumber nonnegB
    rw [numberA.le_iff (numberA.add numberB)]
    have rounded := Amount.nearest_mono (Nat.le_add_right (Amount.units n) (Amount.units m))
    rw [Amount.nearest_units] at rounded
    exact Nat.le_min.mpr ⟨rounded, Amount.Numbers.le_infinite numberA⟩
  add_zero_le nonneg := by
    obtain ⟨n, number, -⟩ := Amount.exists_hasNumber nonneg
    have sum := number.add (b := 0) (m := 0) (.zero .positive)
    rw [Amount.nearest_units_add_zero number] at sum
    exact (sum.le_iff number).mpr (Nat.le_refl n)

instance : CheapestFirst Amount := ⟨Amount.le_of_totalLe⟩

end Search

end ActionPlanning
