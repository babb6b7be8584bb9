import ActionPlanning.Planner
import ActionPlanning.Search.Forward

/-!
# Settings

Settings choose how a planner works: its strategy, its heuristic, whether goals are searched at the
same time, the time limit of a fetch in milliseconds, the search budget in expansions, and how
plans are scored. They are valid when the weight of the cost is finite and not negative and the
budget, if there is one, is not zero.
-/

namespace ActionPlanning

namespace Settings

/-- How the planner chooses what to do. -/
inductive Strategy where
  /-- Plans backwards from each goal. -/
  | regression
  /-- Plans forwards from the state. -/
  | forward
  /-- Ranks the actions that can run now; a single goal is still planned for backwards. -/
  | utility
  deriving DecidableEq, Repr, Inhabited

/-- How searches estimate what is left to do. -/
inductive Estimate where
  | zero
  | unsatisfiedCount
  deriving DecidableEq, Repr, Inhabited

/-- How plans are valued. -/
inductive Scoring where
  | valueMinusCost
  | weightedCost (weight : Amount)
  deriving Repr, Inhabited

/-- Scorings are equal when they are of one kind and weigh costs by equal numbers. -/
instance : BEq Scoring where
  beq
    | .valueMinusCost, .valueMinusCost => true
    | .weightedCost a, .weightedCost b => a == b
    | _, _ => false

end Settings

/-- The choices that make a planner. -/
structure Settings where
  strategy : Settings.Strategy := .regression
  heuristic : Settings.Estimate := .zero
  parallel : Bool := true
  /-- The time limit of a fetch, in milliseconds. -/
  timeLimit : Option Nat := none
  /-- The search budget, in expansions. -/
  budget : Option Nat := none
  scoring : Settings.Scoring := .valueMinusCost
  deriving Repr, Inhabited, BEq

namespace Settings

/-- What is wrong with the settings, if anything is: first the weight is checked, then the
budget. -/
def fault? (s : Settings) : Option ConfigFault :=
  match s.scoring with
  | .weightedCost weight =>
    if !weight.isFinite || weight < 0 then some (.costWeight weight) else budgetFault?
  | .valueMinusCost => budgetFault?
where
  budgetFault? : Option ConfigFault := if s.budget = some 0 then some .noBudget else none

/-- The settings, if nothing is wrong with them. -/
def checked (s : Settings) : Except Failure Settings :=
  match s.fault? with
  | some fault => .error (.config fault)
  | none => .ok s

/-- The time limit of a fetch. -/
def fetchLimit (s : Settings) : Option Span := s.timeLimit.map Span.mk

/-- The heuristic that is chosen; counted conditions weigh one each. -/
def estimator (s : Settings) : Search.Heuristic Amount :=
  match s.heuristic with
  | .zero => Search.Heuristic.zero
  | .unsatisfiedCount => Search.Heuristic.unsatisfiedCount 1

/-- The search algorithm that is chosen. -/
def algorithm (s : Settings) : SearchAlgorithm :=
  match s.strategy with
  | .regression | .utility => Search.Regression.algorithm s.estimator s.budget
  | .forward => Search.Forward.algorithm s.estimator s.budget

/-- The scorer that is chosen. -/
def scorer (s : Settings) : Scorer :=
  match s.scoring with
  | .valueMinusCost => .valueMinusCost
  | .weightedCost weight => .weightedCost weight

/-- The planner that is chosen. -/
def planner (s : Settings) : Planner where
  algorithm := s.algorithm
  scorer := s.scorer
  parallel := s.parallel
  utility := s.strategy = .utility

end Settings

end ActionPlanning
