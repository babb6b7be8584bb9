import ActionPlanning.Search.Algorithm

/-!
# One-step search

One-step search only tries single actions: it takes the first in catalog order that can be
performed and reaches the goal at once. It finds no empty plans.
-/

namespace ActionPlanning.Search.OneStep

/-- Looks for a single action that reaches the goal. -/
def search (actions : List Action) (goal : Goal) (state : WorldState) : Recorded (Option Plan) :=
  match actions.find? fun a =>
      a.canPerform state.facts && goal.isSatisfied (a.applyTo state).facts with
  | some a => do
    let plan ← Plan.make goal [a] state
    return some plan
  | none => return none

/-- One-step search as a search algorithm. -/
def algorithm : SearchAlgorithm := ⟨"custom", search⟩

end ActionPlanning.Search.OneStep
