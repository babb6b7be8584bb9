import ActionPlanning.Action

/-!
# Goals

A goal is a set of conditions that should hold, with a value that says how desirable that is.
-/

namespace ActionPlanning

/-- Conditions to bring about, and what that is worth. -/
structure Goal where
  name : String
  preconditions : Conditions := ∅
  value : Quantity := .fixed 0
  deriving Inhabited, BEq

namespace Goal

/-- The goal that stands for the effects of one action and is worth what the action is. -/
def ofAction (a : Action) : Goal := ⟨a.name, a.effects, a.value⟩

/-- What reaching the goal is worth in a state. -/
def valueIn (g : Goal) (state : WorldState) : Amount := g.value.amountIn state

/-- Whether the goal holds. -/
def isSatisfied (g : Goal) (facts : Conditions) : Bool := facts.satisfies g.preconditions

end Goal

end ActionPlanning
