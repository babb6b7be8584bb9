import ActionPlanning.Amount.Text
import ActionPlanning.Proofs.Amount.Numeral
import ActionPlanning.Proofs.Amount.Totals

/-!
# The shortest numeral of an amount

The numeral that an amount is written with names that amount: whatever is found on a grid of few
digits is checked to do so, the exact value does so in any case, and zeros at the end may go into
the exponent. So no amount is lost when it is written, and it does not matter here how the digits
were found.

## Main results

* `Decimal.toAmount_shift`: zeros at the end count as a greater exponent.
* `toAmount_shortest`: the shortest numeral names its amount.
* `toAmount_magnitude`: so does the one that an amount is written with.
* `pointedText_eq`: that numeral is all that is written of a finite amount without a sign.
-/

namespace ActionPlanning.Amount

variable {a x : Amount} {n m k : Nat}

/-! ## Zeros at the end -/

namespace Decimal

theorem toAmount_congr {c d : Decimal} (same : c.number = d.number) : c.toAmount = d.toAmount := by
  apply eq_of_toBits_eq
  rw [← UInt64.toNat_inj, toNat_toBits_toAmount, toNat_toBits_toAmount, same]

/-- Zeros at the end of the digits count as a greater exponent. -/
theorem toAmount_shift (m k : Nat) (e : Int) :
    (⟨m * 10 ^ k, e⟩ : Decimal).toAmount = (⟨m, e + k⟩ : Decimal).toAmount := by
  refine toAmount_congr (number_congr ?_)
  have powers : 10 ^ k * 10 ^ e.toNat * 10 ^ (-(e + k)).toNat
      = 10 ^ (e + k).toNat * 10 ^ (-e).toNat := by
    rw [← Nat.pow_add, ← Nat.pow_add, ← Nat.pow_add]
    congr 1
    omega
  calc m * 10 ^ k * 10 ^ e.toNat * unitsOfOne * 10 ^ (-(e + k)).toNat
      = m * unitsOfOne * (10 ^ k * 10 ^ e.toNat * 10 ^ (-(e + k)).toNat) := by ring
    _ = m * unitsOfOne * (10 ^ (e + k).toNat * 10 ^ (-e).toNat) := by rw [powers]
    _ = m * 10 ^ (e + k).toNat * unitsOfOne * 10 ^ (-e).toNat := by ring

theorem toAmount_stripZeros (fuel : Nat) (d : Decimal) :
    (d.stripZeros fuel).toAmount = d.toAmount := by
  induction fuel generalizing d with
  | zero => rfl
  | succ fuel ih =>
    rw [stripZeros]
    split
    case isTrue trailing =>
      have digits : d.digits / 10 * 10 ^ 1 = d.digits := by omega
      have shifted := toAmount_shift (d.digits / 10) 1 d.exponent
      rw [digits] at shifted
      exact (ih _).trans shifted.symm
    case isFalse => rfl

end Decimal

/-! ## The exact value -/

/-- The exact value of an amount is its significand, scaled. -/
theorem ofAmount_eq (finite : x.toBits.toNat < infinite) :
    Exact.ofAmount x
      = ⟨significand x.toBits.toNat, (scale x.toBits.toNat : Int) - 1074⟩ := by
  unfold infinite at finite
  have hidden : 1 <<< 52 = 2 ^ 52 := rfl
  simp only [Exact.ofAmount, hidden, significand, scale, Int.ofNat_eq_natCast]
  generalize x.toBits.toNat = n at finite
  split
  · rw [if_pos (by omega)]
    congr 1 <;> omega
  · rw [if_neg (by omega)]
    congr 1
    omega

/-- The exact value names its amount. -/
theorem toAmount_numeral (finite : x.toBits.toNat < infinite) :
    (Exact.ofAmount x).numeral.toAmount = x := by
  apply eq_of_toBits_eq
  rw [← UInt64.toNat_inj, Decimal.toNat_toBits_toAmount, ofAmount_eq finite, Exact.numeral]
  generalize x.toBits.toNat = n at finite
  have kept := Nat.min_eq_left (Nat.le_of_lt finite)
  split
  case isTrue fraction =>
    -- Below one, each power of two in the denominator is one of ten with one of five beside it.
    change (scale n : Int) - 1074 < 0 at fraction
    obtain ⟨q, places⟩ : ∃ q : Nat, (scale n : Int) - 1074 = -q := ⟨1074 - scale n, by omega⟩
    have worth : significand n * 5 ^ q * unitsOfOne = units n * 10 ^ q := by
      have parts : unitsOfOne = 2 ^ scale n * 2 ^ q := by
        rw [unitsOfOne, ← Nat.pow_add]
        congr 1
        omega
      have tens : 10 ^ q = 5 ^ q * 2 ^ q := Nat.mul_pow 5 2 q
      rw [parts, tens, units]
      ring
    have count : (-(-(q : Int))).toNat = q := by omega
    simp only [places, count]
    rw [Decimal.number_neg]
    change min (nearestDiv (significand n * 5 ^ q * unitsOfOne) (10 ^ q)) infinite = n
    rw [worth, nearestDiv_mul_self _ (Nat.pow_pos (by decide)), nearest_units, kept]
  case isFalse whole =>
    change ¬ (scale n : Int) - 1074 < 0 at whole
    obtain ⟨q, zeros⟩ : ∃ q : Nat, (scale n : Int) - 1074 = q := ⟨scale n - 1074, by omega⟩
    have worth : significand n * 2 ^ q * 10 ^ 0 * unitsOfOne = units n := by
      rw [Nat.pow_zero, Nat.mul_one, unitsOfOne, Nat.mul_assoc, ← Nat.pow_add, units]
      congr 2
      omega
    have number := Decimal.number_natCast (significand n * 2 ^ q) 0
    rw [worth, nearest_units, kept] at number
    simp only [zeros, Exact.numerator, Int.toNat_natCast, Nat.shiftLeft_eq]
    exact number

/-! ## The shortest numeral -/

/-- A numeral of few digits is taken only if it names the amount. -/
theorem toAmount_of_numeral? {exact : Exact} {count : Nat} {d : Decimal}
    (found : exact.numeral? x count = some d) : d.toAmount = x := by
  have named {c : Decimal} (names : (c.toAmount.toBits == x.toBits) = true) : c.toAmount = x :=
    eq_of_toBits_eq (eq_of_beq names)
  simp only [Exact.numeral?] at found
  split at found
  case isTrue lower =>
    obtain rfl := Option.some.inj found
    exact named (Bool.and_eq_true_iff.mp lower).1
  case isFalse =>
    split at found
    case isTrue upper =>
      obtain rfl := Option.some.inj found
      exact named upper
    case isFalse => exact nomatch found

/-- The shortest numeral of an amount names it. -/
theorem toAmount_shortest (finite : x.toBits.toNat < infinite) : x.shortest.toAmount = x := by
  rw [shortest, Decimal.toAmount_stripZeros]
  cases found : (List.range' 1 17).findSome? ((Exact.ofAmount x).numeral? x) with
  | none => exact toAmount_numeral finite
  | some d =>
    obtain ⟨count, -, named⟩ := List.exists_of_findSome?_eq_some found
    exact toAmount_of_numeral? named

/-- The numeral that an amount is written with names it. -/
theorem toAmount_magnitude (finite : x.toBits.toNat < infinite) : x.magnitude.toAmount = x := by
  have number : x.HasNumber x.toBits.toNat := Unsigned.hasNumber (Nat.le_of_lt finite)
  rw [magnitude]
  split
  case isTrue nothing =>
    have none := (number.beq_iff (b := 0) (.zero .positive)).mp nothing
    have same : x = 0 := eq_of_toBits_eq (UInt64.toNat_inj.mp none)
    rw [same]
    rfl
  case isFalse =>
    rw [Unsigned.isNegative_eq_false (Nat.le_of_lt finite), if_neg Bool.false_ne_true,
      toAmount_shortest finite]

/-- Only zero is written with no other digit than zero, and then it has no exponent. -/
theorem exponent_magnitude (finite : x.toBits.toNat < infinite) (zero : x.magnitude.digits = 0) :
    x.magnitude.exponent = 0 := by
  have named := toAmount_magnitude finite
  rw [Decimal.toAmount, if_pos zero] at named
  subst named
  rfl

/-! ## Pointed text -/

theorem isInf_eq_false (finite : x.toBits.toNat < infinite) : x.isInf = false := by
  have number : Numbers x.toBits.toNat x.toModel.unpack :=
    Unsigned.hasNumber (Nat.le_of_lt finite)
  change x.toModel.unpack.isInf = false
  generalize x.toBits.toNat = n at number finite
  generalize x.toModel.unpack = y at number
  cases number with
  | zero => rfl
  | finite => rfl
  | infinity => exact absurd finite (Nat.lt_irrefl _)

/-- A finite amount without a sign is written as its numeral alone. -/
theorem pointedText_eq (finite : x.toBits.toNat < infinite) :
    x.pointedText = x.magnitude.positional ".0" := by
  have unsigned : x.Unsigned := Nat.le_of_lt finite
  have isNumber : x.isNaN = false := by
    have number : Numbers x.toBits.toNat x.toModel.unpack := unsigned.hasNumber
    change x.toModel.unpack.isNaN = false
    generalize x.toBits.toNat = n at number
    generalize x.toModel.unpack = y at number
    cases number <;> rfl
  rw [pointedText, special?, isNumber, isInf_eq_false finite, sign, unsigned.isNegative_eq_false]
  exact String.empty_append

end ActionPlanning.Amount
