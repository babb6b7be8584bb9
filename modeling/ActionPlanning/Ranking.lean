import ActionPlanning.Observer
import ActionPlanning.Plan.Scoring
import ActionPlanning.Search.Algorithm
import ActionPlanning.System

/-!
# Ranking plans

Ranking values plans by their scorer in one state of the world and sorts them, best first, by the
total order of amounts; plans of equal value keep their order. Two things are ranked: one plan per
reachable goal of a system, in the order in which the goals are declared; or, with no regard to
goals, one one-step plan per action that is worth running now, in catalog order.

## Main definitions

* `Ranking.goals`: the plans to given goals.
* `Ranking.performable`, `Ranking.utility`: the one-step plans of the actions worth running now.
-/

namespace ActionPlanning

namespace Ranking

/-- A plan and its net value in the state it is ranked in. -/
structure Valued where
  value : Amount
  plan : ScoredPlan

/-- Sorts by value, best first; equal values keep their order. -/
def bestFirst (plans : List Valued) : List Valued :=
  plans.mergeSort fun a b => b.value.totalLe a.value

/-- A plan valued in a state. -/
def valued (state : WorldState) (plan : ScoredPlan) : Recorded Valued := do
  let value ← plan.score state
  return ⟨value, plan⟩

/-- What a ranking yields: the plans, best first, and what the observer was told. -/
structure Result where
  plans : List ScoredPlan
  seen : List Observation := []

/-- Whether an action can run in a state and changes something there. -/
def isCandidate (state : WorldState) (a : Action) : Bool :=
  a.canPerform state.facts && !state.facts.satisfies a.effects

/-- The one-step plan of an action towards its own effects, valued in a state. -/
def oneStep (scorer : Scorer) (state : WorldState) (a : Action) : Recorded Valued := do
  let plan ← Plan.make (.ofAction a) [a] state
  valued state ⟨plan, scorer⟩

/-- The one-step plans of the actions worth running in a state, best first. -/
def performable (actions : List Action) (state : WorldState) (scorer : Scorer) :
    Recorded (List ScoredPlan) := do
  let candidates := actions.filter (isCandidate state)
  let plans ← Recorded.mapList (oneStep scorer state) candidates
  Recorded.note (.candidatesRanked plans.length actions.length)
  return (bestFirst plans).map Valued.plan

/-- The outcome of a search for every goal, in order. -/
def outcomes (searches : ParallelMap Goal (Option ScoredPlan))
    (search : Goal → Recorded (Option ScoredPlan)) (goals : List Goal) :
    Recorded (List Observation) := do
  let plans ← searches.map search goals
  return goals.zipWith Observation.mk plans

/-- Tells the observer an outcome and values its plan, if there is one. -/
def judge (observer : Observer) (state : WorldState) (seen : Observation) :
    Recorded (Option Valued) := do
  Recorded.notes (observer.react seen)
  match seen.plan with
  | none => return none
  | some plan => do
    let value ← valued state plan
    return some value

/-- The plans that a search finds to goals, best first. -/
def goals (searches : ParallelMap Goal (Option ScoredPlan))
    (search : Goal → Recorded (Option ScoredPlan)) (observer : Observer) (goals : List Goal)
    (state : WorldState) : Recorded Result := do
  let seen ← outcomes searches search goals
  let judged ← Recorded.mapList (judge observer state) seen
  let plans := judged.filterMap id
  Recorded.note (.plansRanked plans.length goals.length)
  return ⟨(bestFirst plans).map Valued.plan, seen⟩

/-- The one-step plans of the actions worth running, best first, each told to the observer. -/
def utility (scorer : Scorer) (observer : Observer) (system : PlanningSystem)
    (state : WorldState) : Recorded Result := do
  let plans ← performable system.actions state scorer
  let seen := plans.map fun p => ⟨p.plan.goal, some p⟩
  Recorded.notes (seen.flatMap observer.react)
  return ⟨plans, seen⟩

end Ranking

end ActionPlanning
