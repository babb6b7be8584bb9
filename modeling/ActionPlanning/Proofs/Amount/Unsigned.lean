import ActionPlanning.Proofs.Amount.Cost

/-!
# Amounts without a sign

Amounts that are not negative compare as their numbers do, but the negative zero compares as equal
to zero although its bits differ and the queue puts it first. It is no sum: whatever is added to an
amount without a sign has none either. So accumulated costs that compare as equal are the same
amount, and are queued alike.

## Main definitions

* `Amount.Unsigned`: being neither negative nor undefined nor the negative zero.

## Main results

* `Amount.Unsigned.eq_of_le`: amounts without a sign that compare as equal are the same.
* `Amount.unsigned_add`: sums have no sign.
-/

namespace ActionPlanning

namespace Amount

open Float.Model

variable {a b : Amount} {n m : Nat}

/-- The bits of an amount are those of its number, so it has no sign. -/
def Unsigned (a : Amount) : Prop := a.toBits.toNat ≤ infinite

theorem eq_of_toBits_eq (same : a.toBits = b.toBits) : a = b := by
  obtain ⟨⟨bitsA, validA⟩⟩ := a
  obtain ⟨⟨bitsB, validB⟩⟩ := b
  obtain rfl : bitsA = bitsB := same
  rfl

theorem unsigned_zero : (0 : Amount).Unsigned := Nat.zero_le infinite

theorem Unsigned.hasNumber (unsigned : a.Unsigned) : a.HasNumber a.toBits.toNat :=
  numbers_unpack unsigned

theorem Unsigned.isNegative_eq_false (unsigned : a.Unsigned) : a.isNegative = false := by
  unfold Unsigned infinite at unsigned
  refine decide_eq_false fun negative => ?_
  rw [UInt64.le_iff_toNat_le] at negative
  change 2 ^ 63 ≤ a.toBits.toNat at negative
  omega

theorem Unsigned.le_iff (first : a.Unsigned) (second : b.Unsigned) :
    a ≤ b ↔ a.toBits.toNat ≤ b.toBits.toNat :=
  first.hasNumber.le_iff second.hasNumber

/-- Amounts without a sign that compare as equal are the same. -/
theorem Unsigned.eq_of_le (first : a.Unsigned) (second : b.Unsigned) (le : a ≤ b) (ge : b ≤ a) :
    a = b := by
  rw [first.le_iff second] at le
  rw [second.le_iff first] at ge
  exact eq_of_toBits_eq (UInt64.toNat_inj.mp (Nat.le_antisymm le ge))

/-- Amounts without a sign are queued as they compare. -/
theorem Unsigned.totalLe_iff (first : a.Unsigned) (second : b.Unsigned) :
    a.totalLe b = true ↔ a ≤ b := by
  unfold Unsigned infinite at first second
  rw [Amount.totalLe_iff, UInt64.le_iff_toNat_le, toNat_orderKey, toNat_orderKey,
    if_neg (by omega), if_neg (by omega), Unsigned.le_iff first second]
  omega

theorem HasNumber.unique (first : a.HasNumber n) (second : a.HasNumber m) : n = m :=
  have same : a ≤ a := (first.le_iff first).mpr (Nat.le_refl n)
  Nat.le_antisymm ((first.le_iff second).mp same) ((second.le_iff first).mp same)

/-- A sum is worth nothing only if both amounts are. -/
theorem HasNumber.of_add_zero (first : a.HasNumber n) (second : b.HasNumber m)
    (sum : (a + b).HasNumber 0) : n = 0 ∧ m = 0 := by
  have number := (first.add second).unique sum
  have left := nearest_mono (Nat.le_add_right (units n) (units m))
  have right := nearest_mono (Nat.le_add_left (units m) (units n))
  rw [nearest_units] at left right
  unfold infinite at number
  omega

theorem HasNumber.unpack_eq (number : a.HasNumber 0) : ∃ sign, a.toModel.unpack = .zero sign := by
  unfold HasNumber at number
  generalize a.toModel.unpack = x at number
  cases number with
  | zero sign => exact ⟨sign, rfl⟩
  | finite positive => exact absurd positive (by decide)

/-- Of the two zeros, one has a sign. -/
theorem HasNumber.toBits_eq_signBit (number : a.HasNumber 0) (signed : 2 ^ 63 ≤ a.toBits.toNat) :
    a.toBits = signBit := by
  obtain ⟨sign, unpack⟩ := number.unpack_eq
  have size : a.toBits.toNat < 2 ^ 64 := a.toBits.toNat_lt
  change UnpackedFloat.unpack Format.binary64 a.toBits.toBitVec = .zero sign at unpack
  unfold UnpackedFloat.unpack at unpack
  dsimp only at unpack
  split at unpack
  case isTrue => split at unpack <;> exact nomatch unpack
  case isFalse =>
    split at unpack
    case isFalse => exact nomatch unpack
    case isTrue bottom =>
      split at unpack
      case isFalse => exact nomatch unpack
      case isTrue nothing =>
        rw [unpackExponent_eq_zero_iff] at bottom
        rw [unpackMantissa_eq_zero_iff] at nothing
        rw [← UInt64.toNat_inj]
        change a.toBits.toNat / 2 ^ 52 % 2 ^ 11 = 0 at bottom
        change a.toBits.toNat % 2 ^ 52 = 0 at nothing
        change a.toBits.toNat = 2 ^ 63
        omega

theorem isNaN_eq_false_of_isFinite (finite : a.isFinite = true) : a.isNaN = false := by
  have finite : a.toModel.unpack.isFinite = true := finite
  change a.toModel.unpack.isNaN = false
  generalize a.toModel.unpack = x at finite ⊢
  cases x <;> first | rfl | exact nomatch finite

theorem nonneg_of_finite (finite : a.isFinite = true) (notLess : ¬ a < 0) : 0 ≤ a :=
  nonneg_of_not_needsMending
    (Bool.or_eq_false_iff.mpr ⟨isNaN_eq_false_of_isFinite finite, decide_eq_false notLess⟩)

/-- A finite amount that is not less than zero has no sign, unless it is the negative zero. -/
theorem finite_or_negativeZero (finite : a.isFinite = true) (notLess : ¬ a < 0) :
    a.toBits.toNat < infinite ∨ a = -0.0 := by
  obtain ⟨n, number, same | ⟨rfl, signed⟩⟩ := exists_hasNumber (nonneg_of_finite finite notLess)
  · have finite : a.toModel.unpack.isFinite = true := finite
    refine .inl ?_
    rw [same]
    unfold HasNumber at number
    generalize a.toBits.toNat = bits at same
    generalize a.toModel.unpack = x at finite number
    cases number with
    | zero => decide
    | finite positive below => exact below
    | infinity => exact nomatch finite
  · exact .inr (eq_of_toBits_eq (number.toBits_eq_signBit signed))

/-- Zero and the negative zero add up to zero. -/
theorem toBits_add_eq_zero (first : a.HasNumber 0) (second : b.HasNumber 0)
    (unsigned : a.Unsigned ∨ b.Unsigned) : (a + b).toBits = 0 := by
  obtain ⟨signA, unpackA⟩ := first.unpack_eq
  obtain ⟨signB, unpackB⟩ := second.unpack_eq
  have zero {c : Amount} (number : c.HasNumber 0) (unsigned : c.Unsigned) :
      c.toModel.unpack = .zero .positive := by
    have none := unsigned.hasNumber.unique number
    rw [eq_of_toBits_eq (b := 0) (UInt64.toNat_inj.mp none)]
    rfl
  change (Float.Model.pack (UnpackedFloat.add Format.binary64 a.toModel.unpack
    b.toModel.unpack)).toBits = 0
  rcases unsigned with unsigned | unsigned
  · rw [zero first unsigned, unpackB]
    cases signB <;> rfl
  · rw [unpackA, zero second unsigned]
    cases signA <;> rfl

/-- Sums have no sign if one of the amounts has none. -/
theorem unsigned_add (nonnegA : 0 ≤ a) (nonnegB : 0 ≤ b) (unsigned : a.Unsigned ∨ b.Unsigned) :
    (a + b).Unsigned := by
  obtain ⟨n, numberA, -⟩ := exists_hasNumber nonnegA
  obtain ⟨m, numberB, -⟩ := exists_hasNumber nonnegB
  obtain ⟨k, sum, bits⟩ := exists_hasNumber (numberA.add numberB).nonneg
  rcases bits with same | ⟨rfl, signed⟩
  · unfold Unsigned
    rw [same]
    exact Numbers.le_infinite sum
  · obtain ⟨rfl, rfl⟩ := numberA.of_add_zero numberB sum
    rw [toBits_add_eq_zero numberA numberB unsigned] at signed
    exact absurd signed (by decide)

end Amount

namespace Search

/-- The bits of an amount tell it apart. -/
instance : CountedCost Amount where
  exists_mark := by
    refine ⟨fun a => a.toBits.toFin, fun {a b} nonnegA nonnegB same => ?_⟩
    rw [Amount.eq_of_toBits_eq (UInt64.toFin_inj.mp same)]
    exact LawfulCost.le_rfl nonnegB

/-- Zero that is added takes the sign off the negative zero. -/
instance : FaithfulQueue Amount where
  queued_of_le nonnegA nonnegB le := by
    have nonneg : (0 : Amount) ≤ 0 := LawfulCost.zero_le_zero
    have unsignedA := Amount.unsigned_add nonnegA nonneg (.inr Amount.unsigned_zero)
    have unsignedB := Amount.unsigned_add nonnegB nonneg (.inr Amount.unsigned_zero)
    exact (unsignedA.totalLe_iff unsignedB).mpr
      (LawfulCost.add_le_add nonnegA nonneg le nonneg)

end Search

end ActionPlanning
