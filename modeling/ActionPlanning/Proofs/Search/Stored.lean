import ActionPlanning.Proofs.Amount.Cost

/-!
# Amounts as they are stored

Among amounts there is one that is not a number. In memory there are many, with either sign, and
the total order tells them apart: those with the sign bit set come before all numbers, the others
behind. Which of them a computation yields depends on the machine. A heuristic may yield any, so
what does not rest on the order of the estimates is stated for estimates of every kind, and those
below are one.

## Main definitions

* `Stored`: a number as it is stored, with its place in the total order.
* `Stored.ofAmount`: an amount as it is stored.

## Main results

* `Stored.le_ofAmount_iff`: amounts are queued by their places.
-/

namespace ActionPlanning.Search

/-- A double-precision number as it is stored. What is not a number is stored with either sign and
in many ways; as an amount it is one. -/
structure Stored where
  bits : UInt64

namespace Stored

/-- The place in the total order: negative numbers come before all others, and fall with their
magnitude. -/
def place (x : Stored) : Int :=
  if x.bits.toNat < 2 ^ 63 then x.bits.toNat else 2 ^ 63 - 1 - x.bits.toNat

instance : Priority Stored := ⟨fun x y => x.place ≤ y.place⟩

instance : LawfulPriority Stored where
  le_trans first second :=
    decide_eq_true ((of_decide_eq_true first).trans (of_decide_eq_true second))
  le_total x y := (le_total x.place y.place).imp decide_eq_true decide_eq_true

/-- An amount as it is stored. -/
def ofAmount (a : Amount) : Stored := ⟨a.toBits⟩

/-- The number that is stored. -/
def toAmount (x : Stored) : Amount := Float.ofBits x.bits

/-- What is not a number, with the sign bit set. It comes before all numbers. -/
def negativeNaN : Stored := ⟨0xFFF8000000000000⟩

/-- What is not a number stays as it is when a cost is added, and of two infinities of different
sign nothing else remains. -/
instance : HAdd Amount Stored Stored where
  hAdd cost x :=
    if x.toAmount.isNaN then x
    else if (cost + x.toAmount).isNaN then negativeNaN
    else ofAmount (cost + x.toAmount)

/-- Amounts are queued by their places. -/
theorem le_ofAmount_iff {a b : Amount} :
    Priority.le (ofAmount a) (ofAmount b) = true ↔ a.totalLe b = true := by
  have placed (a : Amount) : (a.orderKey.toNat : Int) = (ofAmount a).place + 2 ^ 63 := by
    have bound := a.toBits.toNat_lt
    have same : (ofAmount a).bits.toNat = a.toBits.toNat := rfl
    rw [Amount.toNat_orderKey, place, same]
    split <;> split <;> omega
  have keys : a.orderKey ≤ b.orderKey ↔ (a.orderKey.toNat : Int) ≤ b.orderKey.toNat := by
    rw [UInt64.le_iff_toNat_le, Int.ofNat_le]
  rw [Amount.totalLe_iff, keys, placed, placed]
  exact decide_eq_true_iff.trans (by omega)

end Stored

end ActionPlanning.Search
