import ActionPlanning.Quantity

/-!
# Ready-made rules

Three common ways in which a quantity depends on the facts: on whether a key is set, on whether
it is set to a given value, and in proportion to the number it is set to.
-/

namespace ActionPlanning

/-- A rule that computes an amount from the facts. -/
inductive Rule where
  /-- Chooses by whether a key is set to anything. -/
  | whenSet (key : String) (yes no : Amount)
  /-- Chooses by whether a key is set to exactly this value. -/
  | whenHolds (key : String) (value : Condition.Value) (yes no : Amount)
  /-- A number scaled, or a fallback when the key is not set to a number. -/
  | proportional (key : String) (fallback scale : Amount)
  deriving Repr

namespace Rule

/-- The amount a rule gives for the facts of a state. -/
def amountIn (rule : Rule) (state : WorldState) : Amount :=
  match rule with
  | whenSet key yes no => if state.facts.contains key then yes else no
  | whenHolds key value yes no => if state.facts.holds key value then yes else no
  | proportional key fallback scale =>
    match state.facts.get? key with
    | some (.number n) => Float.ofInt n.toInt * scale
    | _ => fallback

end Rule

/-- The quantity that follows a ready-made rule. -/
def Quantity.ofRule (label : Nat) (rule : Rule) : Quantity := .computed label rule.amountIn

end ActionPlanning
