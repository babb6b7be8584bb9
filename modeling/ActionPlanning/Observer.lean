import ActionPlanning.Plan.Scoring

/-!
# Observers

An observer is told the outcome for each goal while plans are ranked, one call at a time. What it
is told is an observation; what it does in return is to leave events in the journal. The journal
observer writes one line for every outcome, the silent one none.
-/

namespace ActionPlanning

/-- The outcome of planning for one goal. -/
structure Observation where
  goal : Goal
  plan : Option ScoredPlan

/-- Reacts to observations with events. -/
structure Observer where
  react : Observation → List Event

namespace Observer

/-- Writes every outcome to the journal. -/
def journal : Observer where
  react seen :=
    match seen.plan with
    | none => [.planMissing seen.goal.name]
    | some plan =>
      if plan.plan.actions.isEmpty then [.goalHolds seen.goal.name]
      else [.planFound seen.goal.name plan.actionNames]

/-- Ignores everything. -/
def silent : Observer := ⟨fun _ => []⟩

end Observer

end ActionPlanning
