import ActionPlanning.Proofs.Amount.Unsigned

/-!
# The end of the order

Infinity is taken off a finite amount, weighed by a factor, and ranked. Whatever finite amount it is
taken off, negative infinity is left, which has the lowest place of all numbers. A factor of zero
makes it what is no number. Of finite amounts, no product and no difference is undefined, but either
may overflow to one of the infinities.

## Main results

* `sub_inf`, `mul_inf`: infinity in arithmetic with finite amounts.
* `isNaN_sub`, `isNaN_mul`: where arithmetic with finite amounts is undefined.
* `totalLe_neg_inf_iff`: the end of the order.
-/

namespace ActionPlanning.Amount

open Float.Model

variable {a c v w : Amount}

/-! ## What is no number -/

theorem isNaN_iff : a.isNaN = true ↔ a = Float.nan := by
  rw [Float.isNaN_eq_decide_eq_nan, decide_eq_true_iff]

/-- Packing makes nothing undefined. -/
theorem isNaN_unpack_pack (x : UnpackedFloat) : (pack x).unpack.isNaN = x.isNaN := by
  cases x with
  | notANumber => rfl
  | infinity sign => cases sign <;> rfl
  | zero sign => cases sign <;> rfl
  | finite =>
    refine Bool.eq_false_iff.mpr fun undefined => ?_
    have packed := (UnpackedFloat.isNaN_unpack_iff_of_valid UnpackedFloat.valid_pack).mp undefined
    have exponent := congrArg UnpackedFloat.unpackExponent packed
    have mantissa := congrArg UnpackedFloat.unpackMantissa packed
    simp only [UnpackedFloat.pack, UnpackedFloat.packedNaN,
      UnpackedFloat.unpackExponent_packComponents,
      UnpackedFloat.unpackMantissa_packComponents] at exponent mantissa
    -- Infinity has no mantissa, and all else has an exponent below the highest.
    split at exponent
    case isTrue high =>
      rw [if_pos high, UnpackedFloat.packedInfinity,
        UnpackedFloat.unpackMantissa_packComponents] at mantissa
      exact absurd mantissa (by decide)
    case isFalse fits =>
      split at exponent
      case isTrue =>
        rw [UnpackedFloat.unpackExponent_packComponents, ← BitVec.toNat_inj,
          BitVec.toNat_ofNat] at exponent
        change ¬ 2048 ≤ _ + 1 at fits
        change _ % 2048 = 2047 at exponent
        omega
      case isFalse =>
        rw [UnpackedFloat.unpackExponent_packComponents] at exponent
        exact absurd exponent (by decide)

theorem isNaN_roundWithAccuracy (sign : UnpackedFloat.Sign) (m : Nat) (e : Int)
    (accuracy : UnpackedFloat.Accuracy) :
    (UnpackedFloat.roundWithAccuracy Format.binary64 sign m e accuracy).isNaN = false := by
  unfold UnpackedFloat.roundWithAccuracy
  dsimp only
  split <;> rfl

theorem isNaN_normalize (m e : Int) (sign : UnpackedFloat.Sign) :
    (UnpackedFloat.normalize Format.binary64 m e sign).isNaN = false := by
  unfold UnpackedFloat.normalize
  split
  case h_2 => rfl
  all_goals exact isNaN_roundWithAccuracy ..

/-- The product of finite amounts is a number. -/
theorem isNaN_mul (finiteW : w.isFinite = true) (finiteC : c.isFinite = true) :
    (w * c).isNaN = false := by
  have finiteW : w.toModel.unpack.isFinite = true := finiteW
  have finiteC : c.toModel.unpack.isFinite = true := finiteC
  change (pack (UnpackedFloat.mul Format.binary64 w.toModel.unpack
    c.toModel.unpack)).unpack.isNaN = false
  rw [isNaN_unpack_pack]
  generalize w.toModel.unpack = x at finiteW ⊢
  generalize c.toModel.unpack = y at finiteC ⊢
  cases y with
  | notANumber | infinity => exact nomatch finiteC
  | zero =>
    cases x with
    | notANumber | infinity => exact nomatch finiteW
    | _ => rfl
  | finite =>
    cases x with
    | notANumber | infinity => exact nomatch finiteW
    | zero => rfl
    | finite => exact isNaN_roundWithAccuracy ..

/-- What is taken off a finite amount leaves a number if it is one. -/
theorem isNaN_sub (finite : v.isFinite = true) : (v - c).isNaN = c.isNaN := by
  have finite : v.toModel.unpack.isFinite = true := finite
  change (pack (UnpackedFloat.sub Format.binary64 v.toModel.unpack
    c.toModel.unpack)).unpack.isNaN = c.toModel.unpack.isNaN
  rw [isNaN_unpack_pack]
  generalize v.toModel.unpack = x at finite ⊢
  generalize c.toModel.unpack = y
  cases x with
  | notANumber | infinity => exact nomatch finite
  | zero sign =>
    cases y with
    | zero other => cases sign <;> cases other <;> rfl
    | _ => rfl
  | finite =>
    cases y with
    | finite => exact isNaN_normalize ..
    | _ => rfl

/-! ## Infinity -/

theorem sub_inf (finite : v.isFinite = true) : v - Float.inf = -Float.inf := by
  have finite : v.toModel.unpack.isFinite = true := finite
  change Float.ofModel (pack (UnpackedFloat.sub Format.binary64 v.toModel.unpack
    (.infinity .positive))) = _
  generalize v.toModel.unpack = x at finite ⊢
  cases x with
  | notANumber | infinity => exact nomatch finite
  | _ => rfl

/-- Infinity stays what it is under any finite factor but zero. -/
theorem mul_inf (finite : w.isFinite = true) (notLess : ¬ w < 0) :
    w * Float.inf = if w == 0 then Float.nan else Float.inf := by
  obtain ⟨n, number, -⟩ := exists_hasNumber (nonneg_of_finite finite notLess)
  have finite : w.toModel.unpack.isFinite = true := finite
  change Float.ofModel (pack (UnpackedFloat.mul Format.binary64 w.toModel.unpack
    (.infinity .positive))) = if w.toModel.unpack.beq (.zero .positive) then _ else _
  unfold HasNumber at number
  generalize w.toModel.unpack = x at finite number ⊢
  cases number with
  | zero | finite => rfl
  | infinity => exact nomatch finite

/-- An amount that is not negative is finite unless it is infinity. -/
theorem isFinite_iff_ne_inf (nonneg : 0 ≤ a) : a.isFinite = true ↔ a ≠ Float.inf := by
  refine ⟨?_, fun other => ?_⟩
  · rintro finite rfl
    exact nomatch finite
  · obtain ⟨n, number, bits⟩ := exists_hasNumber nonneg
    change a.toModel.unpack.isFinite = true
    unfold HasNumber at number
    generalize a.toModel.unpack = x at number
    cases number with
    | zero | finite => rfl
    | infinity =>
      rcases bits with same | ⟨none, -⟩
      · exact absurd (eq_of_toBits_eq (UInt64.toNat_inj.mp same)) other
      · exact absurd none (by decide)

/-! ## The order -/

/-- The bits of a number, without its sign, are at most those of infinity. -/
theorem toBits_le_of_isNaN (number : a.isNaN = false) : a.toBits.toNat % 2 ^ 63 ≤ infinite := by
  have number : (UnpackedFloat.unpack Format.binary64 a.toModel.toBits.toBitVec).isNaN = false :=
    number
  unfold UnpackedFloat.unpack at number
  dsimp only at number
  unfold infinite
  split at number
  case isTrue top =>
    rw [unpackExponent_eq_top_iff] at top
    change a.toBits.toNat / 2 ^ 52 % 2 ^ 11 = 2047 at top
    split at number
    case isTrue nothing =>
      rw [unpackMantissa_eq_zero_iff] at nothing
      change a.toBits.toNat % 2 ^ 52 = 0 at nothing
      omega
    case isFalse => exact nomatch number
  case isFalse notTop =>
    rw [unpackExponent_eq_top_iff] at notTop
    change ¬ a.toBits.toNat / 2 ^ 52 % 2 ^ 11 = 2047 at notTop
    omega

/-- Negative infinity has the lowest place of all numbers. -/
theorem totalLe_neg_inf_iff (number : a.isNaN = false) :
    a.totalLe (-Float.inf) = true ↔ a = -Float.inf := by
  refine ⟨fun lowest => ?_, fun same => same ▸ totalLe_refl _⟩
  have magnitude := toBits_le_of_isNaN number
  have size : a.toBits.toNat < 2 ^ 64 := a.toBits.toNat_lt
  have place : (orderKey (-Float.inf)).toNat = 2 ^ 63 - 1 - infinite := rfl
  have bits : (-Float.inf).toBits.toNat = 2 ^ 63 + infinite := rfl
  rw [totalLe_iff, UInt64.le_iff_toNat_le, place, toNat_orderKey] at lowest
  refine eq_of_toBits_eq (UInt64.toNat_inj.mp (Eq.trans ?_ bits.symm))
  unfold infinite at magnitude lowest ⊢
  split at lowest <;> omega

end ActionPlanning.Amount
