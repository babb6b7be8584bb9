import ActionPlanning.Amount.Text
import ActionPlanning.WorldState

/-!
# Quantities

The price of an action and the worth of a goal are quantities: either a fixed amount or a rule
that computes an amount from the state of the world. Rules are functions and cannot be compared,
so a computed quantity carries a label and is equal only to a quantity with the same label.
-/

namespace ActionPlanning

/-- An amount that is fixed or computed from the state of the world. -/
inductive Quantity where
  | fixed (amount : Amount)
  | computed (label : Nat) (rule : WorldState → Amount)

namespace Quantity

instance : Inhabited Quantity := ⟨fixed 0⟩

/-- The amount in a state, as the rule gives it. -/
def amountIn (q : Quantity) (state : WorldState) : Amount :=
  match q with
  | fixed amount => amount
  | computed _ rule => rule state

/-- Fixed quantities are equal as numbers; what is not a number differs from itself. -/
instance : BEq Quantity where
  beq
    | fixed a, fixed b => a == b
    | computed label _, computed label' _ => label == label'
    | _, _ => false

/-- A short description that does not look into rules. -/
def describe : Quantity → String
  | fixed amount => "Fixed(" ++ amount.plainText ++ ")"
  | computed .. => "Dynamic(..)"

end Quantity

end ActionPlanning
