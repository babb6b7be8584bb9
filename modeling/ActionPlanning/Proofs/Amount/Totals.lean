import ActionPlanning.Proofs.Amount.Unsigned
import Mathlib.Data.List.Forall2

/-!
# Adding up amounts

Every addition rounds, so the total of several amounts may depend on the order in which they are
added. It does not depend on the sign of the zero that the addition starts from. And it does not
depend on the order where nothing is ever rounded: where all amounts are whole multiples of one
power of two, and no more of it together than a significand holds.

## Main definitions

* `Alike`: being equal as numbers, or both not a number.
* `Unrounded`: amounts that add up without rounding.

## Main results

* `HasNumber.beq_iff`: amounts are equal as numbers if they have the same number.
* `alike_sub`: subtracting equal numbers gives alike results.
* `exists_hasNumber_foldl`: totals that start from either zero are equal as numbers.
* `Unrounded.exists_hasNumber_foldl`: totals of unrounded amounts do not depend on the order.
-/

namespace ActionPlanning.Amount

open Float.Model

variable {a b : Amount} {n m k v w : Nat} {x y : UnpackedFloat} {xs ys : List Amount}
  {ws : List Nat}

/-! ## Equal numbers -/

/-- Amounts are equal as numbers if they have the same number. -/
theorem Numbers.beq_iff (first : Numbers n x) (second : Numbers m y) :
    x.beq y = true ↔ n = m := by
  cases first with
  | zero =>
    cases second with
    | zero => exact ⟨fun _ => rfl, fun _ => rfl⟩
    | finite positive =>
      refine ⟨fun same => Bool.noConfusion same, fun same => ?_⟩
      subst same
      exact absurd positive (by decide)
    | infinity => exact ⟨fun same => Bool.noConfusion same, fun same => absurd same (by decide)⟩
  | finite positive below =>
    cases second with
    | zero =>
      refine ⟨fun same => Bool.noConfusion same, fun same => ?_⟩
      subst same
      exact absurd positive (by decide)
    | finite =>
      rw [UnpackedFloat.beq, UnpackedFloat.compare, beq_iff_eq, Option.some.injEq,
        Ordering.then_eq_eq, Int.compare_eq_eq, Nat.compare_eq_eq]
      constructor
      · rintro ⟨scales, significands⟩
        have := scale_mul_add_significand n
        have := scale_mul_add_significand m
        omega
      · rintro rfl
        exact ⟨rfl, rfl⟩
    | infinity =>
      exact ⟨fun same => Bool.noConfusion same, fun same => absurd same (Nat.ne_of_lt below)⟩
  | infinity =>
    cases second with
    | zero => exact ⟨fun same => Bool.noConfusion same, fun same => absurd same (by decide)⟩
    | finite _ below =>
      exact ⟨fun same => Bool.noConfusion same, fun same => absurd same.symm (Nat.ne_of_lt below)⟩
    | infinity => exact ⟨fun _ => rfl, fun _ => rfl⟩

theorem HasNumber.beq_iff (first : a.HasNumber n) (second : b.HasNumber m) :
    (a == b) = true ↔ n = m :=
  Numbers.beq_iff first second

/-- Of amounts that are equal as numbers neither is greater. -/
theorem le_of_beq (nonnegA : 0 ≤ a) (nonnegB : 0 ≤ b) (same : (a == b) = true) : b ≤ a := by
  obtain ⟨n, first, -⟩ := exists_hasNumber nonnegA
  obtain ⟨m, second, -⟩ := exists_hasNumber nonnegB
  exact (second.le_iff first).mpr (Nat.le_of_eq ((first.beq_iff second).mp same).symm)

/-- Equal as numbers, or both not a number. -/
def Alike (a b : Amount) : Prop := (a == b) = true ∨ a.isNaN = true ∧ b.isNaN = true

theorem Alike.refl (a : Amount) : a.Alike a := by
  change a.toModel.unpack.beq a.toModel.unpack = true ∨
    a.toModel.unpack.isNaN = true ∧ a.toModel.unpack.isNaN = true
  cases a.toModel.unpack with
  | notANumber => exact .inr ⟨rfl, rfl⟩
  | infinity sign => cases sign <;> exact .inl rfl
  | zero => exact .inl rfl
  | finite sign => cases sign <;> exact .inl (by simp [UnpackedFloat.beq, UnpackedFloat.compare])

/-- What is equal as a number is unpacked to the same, but for the sign of zero. -/
theorem eq_or_zero_of_beq (same : x.beq y = true) :
    x = y ∨ ∃ s t, x = .zero s ∧ y = .zero t := by
  cases x with
  | notANumber => exact Bool.noConfusion same
  | infinity s =>
    cases y with
    | infinity t => cases s <;> cases t <;> first | exact .inl rfl | exact Bool.noConfusion same
    | _ => cases s <;> exact Bool.noConfusion same
  | zero s =>
    cases y with
    | zero t => exact .inr ⟨s, t, rfl, rfl⟩
    | infinity t => cases t <;> exact Bool.noConfusion same
    | finite t => cases t <;> exact Bool.noConfusion same
    | notANumber => exact Bool.noConfusion same
  | finite s =>
    cases y with
    | finite t =>
      left
      cases s <;> cases t <;>
        simp_all [UnpackedFloat.beq, UnpackedFloat.compare, Ordering.then_eq_eq]
    | infinity t => cases s <;> cases t <;> exact Bool.noConfusion same
    | zero => cases s <;> exact Bool.noConfusion same
    | notANumber => cases s <;> exact Bool.noConfusion same

/-- Subtracting equal numbers gives alike results. -/
theorem alike_sub (v : Amount) (same : (a == b) = true) : (v - a).Alike (v - b) := by
  have equal (unpacked : UnpackedFloat.sub Format.binary64 v.toModel.unpack a.toModel.unpack
      = UnpackedFloat.sub Format.binary64 v.toModel.unpack b.toModel.unpack) :
      (v - a).Alike (v - b) := by
    have same : v - a = v - b := congrArg (fun x => Float.ofModel (pack x)) unpacked
    exact same ▸ .refl _
  rcases eq_or_zero_of_beq same with unpacked | ⟨s, t, zeroA, zeroB⟩
  · exact equal (congrArg _ unpacked)
  · rw [zeroA, zeroB] at equal
    -- Only zero takes a sign from the zero that is subtracted from it, and that is no difference.
    cases unpacked : v.toModel.unpack with
    | zero u =>
      left
      change (pack (UnpackedFloat.sub Format.binary64 v.toModel.unpack a.toModel.unpack)).unpack.beq
        (pack (UnpackedFloat.sub Format.binary64 v.toModel.unpack b.toModel.unpack)).unpack = true
      rw [unpacked, zeroA, zeroB]
      cases u <;> cases s <;> cases t <;> rfl
    | _ => exact equal (by rw [unpacked]; rfl)

/-! ## Totals in one order -/

/-- Adding the same amounts to equal numbers gives equal numbers. -/
theorem exists_hasNumber_foldl (nonneg : ∀ x ∈ xs, 0 ≤ x) (first : a.HasNumber n)
    (second : b.HasNumber n) :
    ∃ m, (xs.foldl (· + ·) a).HasNumber m ∧ (xs.foldl (· + ·) b).HasNumber m := by
  induction xs generalizing a b n with
  | nil => exact ⟨n, first, second⟩
  | cons x rest ih =>
    obtain ⟨nonnegX, nonnegRest⟩ := List.forall_mem_cons.mp nonneg
    obtain ⟨k, number, -⟩ := exists_hasNumber nonnegX
    exact ih nonnegRest (first.add number) (second.add number)

/-! ## Totals without rounding -/

/-- Amounts that are whole multiples of one power of two, and no more of it together than a
significand holds. -/
def Unrounded (xs : List Amount) : Prop :=
  ∃ k ws, List.Forall₂ (fun x w => ∃ n, x.HasNumber n ∧ units n = w * 2 ^ k) xs ws ∧
    ws.sum ≤ 2 ^ 53

/-- Multiples that fit a significand together are added without rounding. -/
theorem HasNumber.add_multiple (first : a.HasNumber (min (nearest (v * 2 ^ k)) infinite))
    (second : b.HasNumber n) (multiple : units n = w * 2 ^ k) (fits : v + w ≤ 2 ^ 53) :
    (a + b).HasNumber (min (nearest ((v + w) * 2 ^ k)) infinite) := by
  have sum := first.add second
  rw [multiple] at sum
  rcases Nat.le_total (nearest (v * 2 ^ k)) infinite with finite | beyond
  · rwa [Nat.min_eq_left finite, units_nearest (by omega), ← Nat.add_mul] at sum
  · -- What is beyond all amounts stays there.
    rw [Nat.min_eq_right beyond, nearest_units_infinite_add] at sum
    have further : infinite ≤ nearest ((v + w) * 2 ^ k) :=
      beyond.trans (nearest_mono (Nat.mul_le_mul_right _ (Nat.le_add_right v w)))
    rwa [Nat.min_eq_right further]

theorem hasNumber_foldl
    (multiples : List.Forall₂ (fun x w => ∃ n, x.HasNumber n ∧ units n = w * 2 ^ k) xs ws)
    (start : a.HasNumber (min (nearest (v * 2 ^ k)) infinite)) (fits : v + ws.sum ≤ 2 ^ 53) :
    (xs.foldl (· + ·) a).HasNumber (min (nearest ((v + ws.sum) * 2 ^ k)) infinite) := by
  induction multiples generalizing a v with
  | nil => exact start
  | cons multiple _ ih =>
    obtain ⟨n, number, worth⟩ := multiple
    rw [List.sum_cons, ← Nat.add_assoc] at fits ⊢
    exact ih (start.add_multiple number worth (by omega)) fits

/-- Unrounded amounts have the same total in either direction. -/
theorem Unrounded.exists_hasNumber_foldl (unrounded : Unrounded xs) (start : a.HasNumber 0)
    (other : b.HasNumber 0) :
    ∃ m, (xs.foldl (· + ·) a).HasNumber m ∧ (xs.reverse.foldl (· + ·) b).HasNumber m := by
  obtain ⟨k, ws, multiples, fits⟩ := unrounded
  have nothing : min (nearest (0 * 2 ^ k)) infinite = 0 := by rw [Nat.zero_mul]; rfl
  have reversed := List.forall₂_reverse_iff.mpr multiples
  have forwards := hasNumber_foldl (v := 0) multiples (nothing ▸ start) (by omega)
  have backwards := hasNumber_foldl (v := 0) reversed (nothing ▸ other)
    (by rw [List.sum_reverse]; omega)
  rw [List.sum_reverse] at backwards
  exact ⟨_, forwards, backwards⟩

end ActionPlanning.Amount
