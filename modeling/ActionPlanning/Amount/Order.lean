/-!
# Amounts and their total order

Costs, values, scores and estimates are double-precision numbers. Arithmetic comparison leaves
out what is not a number and identifies the two zeros, so rankings and queues use a total order
instead: `-inf < … < -0.0 < 0.0 < … < inf < NaN`. The order is carried by an integer key, and
the laws of a total order are read off the key.
-/

namespace ActionPlanning

/-- A cost, value, score or estimate: a double-precision number. -/
abbrev Amount := Float

namespace Amount

/-- The bit that marks negative numbers. -/
def signBit : UInt64 := 0x8000000000000000

/-- Whether the sign bit is set; true of `-0.0`. -/
def isNegative (x : Amount) : Bool := signBit ≤ x.toBits

/-- The place of an amount in the total order. Nonnegative numbers follow their bits; the bits
of a negative number grow with its magnitude, so its place falls as they grow. -/
def orderKey (x : Amount) : UInt64 :=
  if x.isNegative then ~~~x.toBits else x.toBits ^^^ signBit

/-- The total order of amounts: `-inf < … < -0.0 < 0.0 < … < inf < NaN`. -/
def totalLe (x y : Amount) : Bool := x.orderKey ≤ y.orderKey

theorem totalLe_iff {x y : Amount} : x.totalLe y = true ↔ x.orderKey ≤ y.orderKey := by
  simp [totalLe]

theorem totalLe_refl (x : Amount) : x.totalLe x = true :=
  totalLe_iff.mpr (UInt64.le_refl _)

theorem totalLe_trans {x y z : Amount} (first : x.totalLe y = true) (second : y.totalLe z = true) :
    x.totalLe z = true :=
  totalLe_iff.mpr (UInt64.le_trans (totalLe_iff.mp first) (totalLe_iff.mp second))

theorem totalLe_total (x y : Amount) : x.totalLe y = true ∨ y.totalLe x = true := by
  simp only [totalLe_iff]
  exact UInt64.le_total _ _

end Amount

end ActionPlanning
