import ActionPlanning.Plan

/-!
# Scoring plans

A scorer values a plan in a state of the world; more is better. The usual score is the value of
the goal minus the cost of the plan, evaluated in that state; another one weighs the cost first.
-/

namespace ActionPlanning

/-- A way to value plans. -/
structure Scorer where
  score : Plan → WorldState → Recorded Amount

namespace Scorer

/-- The value of the goal minus the cost. -/
def valueMinusCost : Scorer where
  score plan state := do
    let cost ← plan.price state
    return plan.goal.valueIn state - cost

/-- The value of the goal minus the weighted cost. -/
def weightedCost (weight : Amount) : Scorer where
  score plan state := do
    let cost ← plan.price state
    return plan.goal.valueIn state - weight * cost

end Scorer

/-- A plan together with the scorer that values it. -/
structure ScoredPlan where
  plan : Plan
  scorer : Scorer

namespace ScoredPlan

def actionNames (p : ScoredPlan) : List String := p.plan.actionNames

/-- The net value of a plan in a state, with the warnings its evaluation leaves. -/
def score (p : ScoredPlan) (state : WorldState) : Recorded Amount := p.scorer.score p.plan state

/-- The net value of a plan in a state. -/
def netValue (p : ScoredPlan) (state : WorldState) : Amount := (p.score state).value

end ScoredPlan

end ActionPlanning
