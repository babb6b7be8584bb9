/-!
# Conditions

A condition is an atomic fact about the world: a key with a value. Values are of three kinds that
never equal each other, and they are ordered by kind first: flags, then numbers, then texts.
-/

namespace ActionPlanning

/-- The value side of a condition. -/
inductive Condition.Value where
  | flag (value : Bool)
  | number (value : Int64)
  | text (value : String)
  deriving DecidableEq, Repr, Inhabited

/-- A key with its value. -/
structure Condition where
  key : String
  value : Condition.Value
  deriving DecidableEq, Repr, Inhabited

namespace Condition

namespace Value

/-- The plain text of a value; a text stands for itself, without quotes. -/
def describe : Value → String
  | flag true => "true"
  | flag false => "false"
  | number n => toString n.toInt
  | text s => s

/-- Flags come before numbers and numbers before texts; within a kind the usual order holds. -/
protected def compare : Value → Value → Ordering
  | flag a, flag b => Ord.compare a b
  | flag _, _ => .lt
  | number _, flag _ => .gt
  | number a, number b => Ord.compare a b
  | number _, text _ => .lt
  | text a, text b => Ord.compare a b
  | text _, _ => .gt

instance : Ord Value := ⟨Value.compare⟩

theorem compare_def (a b : Value) : Ord.compare a b = Value.compare a b := rfl

instance : Std.OrientedOrd Value where
  eq_swap {a b} := by
    cases a <;> cases b <;> simp only [compare_def, Value.compare, Ordering.swap_lt,
      Ordering.swap_gt] <;> exact Std.OrientedCmp.eq_swap

instance : Std.TransOrd Value where
  isLE_trans {a b c} := by
    cases a <;> cases b <;> cases c <;>
      simp only [compare_def, Value.compare, Ordering.isLE_lt, Ordering.isLE_gt, Bool.false_eq_true,
        false_implies, implies_true] <;>
      exact Std.TransCmp.isLE_trans

instance : Std.LawfulEqOrd Value where
  compare_self {a} := by
    cases a <;> simp only [compare_def, Value.compare] <;> exact Std.ReflCmp.compare_self
  eq_of_compare {a b} := by
    cases a <;> cases b <;> simp only [compare_def, Value.compare, reduceCtorEq, false_implies] <;>
      intro h <;> rw [Std.LawfulEqCmp.eq_of_compare h]

end Value

/-- A condition reads `key: value`. -/
def describe (c : Condition) : String := c.key ++ ": " ++ c.value.describe

/-- Conditions are ordered by key and then by value. -/
instance : Ord Condition := ⟨compareLex (compareOn Condition.key) (compareOn Condition.value)⟩

instance : Std.TransOrd Condition :=
  inferInstanceAs
    (Std.TransCmp (compareLex (compareOn Condition.key) (compareOn Condition.value)))

instance : Std.LawfulEqOrd Condition where
  eq_of_compare {a b} h := by
    have both : compareLex (compareOn Condition.key) (compareOn Condition.value) a b = .eq := h
    rw [compareLex_eq_eq] at both
    obtain ⟨keys, values⟩ := both
    cases a
    cases b
    simp only [compareOn] at keys values
    rw [Std.LawfulEqCmp.eq_of_compare keys, Std.LawfulEqCmp.eq_of_compare values]

end Condition

end ActionPlanning
