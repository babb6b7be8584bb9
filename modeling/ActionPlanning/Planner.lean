import ActionPlanning.Episode.Cache
import ActionPlanning.Ranking
import ActionPlanning.Search.Regression
import ActionPlanning.System.Relevance

/-!
# Planners

A planner ties the parts together: it gets the snapshot of the episode, plans with its search
algorithm or ranks the actions that can run now, values plans with its scorer, and tells its
observer. Every operation works on the one snapshot of the episode; if there is none, the
operation fails and tells the observer nothing.

## Main definitions

* `Planner`: an algorithm, a scorer, an observer, a way to search at the same time, and two
  switches.
* `Planner.planToGoal`, `Planner.plansToGoals`, `Planner.bestPlan`: the operations.
* `Reaction`: what an operation yields.
-/

namespace ActionPlanning

/-- How to plan. -/
structure Planner where
  algorithm : SearchAlgorithm := Search.Regression.algorithm Search.Heuristic.zero none
  scorer : Scorer := .valueMinusCost
  observer : Observer := .journal
  /-- Whether goals may be searched at the same time. -/
  parallel : Bool := true
  /-- How goals are searched at the same time. -/
  together : ParallelMap Goal (Option ScoredPlan) := .oneByOne
  /-- Whether to rank the actions that can run now instead of planning for goals. -/
  utility : Bool := false

/-- What an operation of a planner yields: its answer or why there is none, what the observer was
told, and what later operations go on from. -/
structure Reaction (α : Type) (γ : Type := Cancellations) [TokenLibrary γ] where
  answer : Except Interruption α
  seen : List Observation := []
  session : Session γ

namespace Planner

variable {α γ : Type} [TokenLibrary γ]

/-- Carries out an operation on the snapshot of the episode. -/
def onSnapshot (determiner : Determiner) (session : Session γ)
    (operation : WorldState → Recorded (α × List Observation)) : Recorded (Reaction α γ) := do
  let (snapshot, session) ← session.current determiner
  match snapshot with
  | .error interruption => return { answer := .error interruption, session }
  | .ok snapshot => do
    let (answer, seen) ← operation snapshot.state
    return { answer := .ok answer, seen, session }

/-- The plan of the search algorithm to one goal. -/
def search (p : Planner) (actions : List Action) (goal : Goal) (state : WorldState) :
    Recorded (Option ScoredPlan) := do
  let plan ← p.algorithm.search actions goal state
  return plan.map fun plan => ⟨plan, p.scorer⟩

/-- How the goals of a system are searched. -/
def searches (p : Planner) : ParallelMap Goal (Option ScoredPlan) :=
  if p.parallel then p.together else .oneByOne

/-- The plans to the goals of a system in a state, or the actions worth running there. -/
def rank (p : Planner) (system : PlanningSystem) (state : WorldState) : Recorded Ranking.Result :=
  if p.utility then Ranking.utility p.scorer p.observer system state
  else Ranking.goals p.searches (p.search system.actions · state) p.observer system.goals state

/-- Plans for one goal. -/
def planToGoal (p : Planner) (determiner : Determiner) (session : Session γ)
    (actions : List Action) (goal : Goal) : Recorded (Reaction (Option ScoredPlan) γ) :=
  onSnapshot determiner session fun state => do
    let plan ← p.search actions goal state
    return (plan, [])

/-- Plans for every goal of a system, best plan first. -/
def plansToGoals (p : Planner) (determiner : Determiner) (session : Session γ)
    (system : PlanningSystem) : Recorded (Reaction (List ScoredPlan) γ) :=
  onSnapshot determiner session fun state => do
    let result ← p.rank system state
    return (result.plans, result.seen)

/-- The best plan to any goal of a system. -/
def bestPlan (p : Planner) (determiner : Determiner) (session : Session γ)
    (system : PlanningSystem) : Recorded (Reaction (Option ScoredPlan) γ) := do
  let reaction ← p.plansToGoals determiner session system
  return { reaction with answer := reaction.answer.map List.head? }

/-- A description of the planner. -/
def describe (p : Planner) (session : Session γ) : String :=
  "GoapPlanner \x7b world_state: " ++ session.describeCache ++ ", search_algorithm: "
    ++ Text.quoted p.algorithm.name ++ ", parallel: " ++ toString p.parallel ++ ", utility: "
    ++ toString p.utility ++ " \x7d"

end Planner

end ActionPlanning
