import ActionPlanning.Plan
import ActionPlanning.Search.BestFirst

/-!
# Search algorithms

A search algorithm looks for a plan to one goal from a state of the world. Plans can be searched in
two directions, backwards from the goal or forwards from the state. The directions differ in what
they search and in the order in which they come by the actions of a plan. They share the rest:
heuristics that estimate what is left to do, actions priced in the state and tried in the order of
their names, and the journal line with which a search ends.

## Main definitions

* `Heuristic`: estimates what is left to do.
* `Direction`: what is searched in a direction.
* `Direction.search`: looking for a plan in a direction.
-/

namespace ActionPlanning

/-- A way to find a plan to one goal. -/
structure SearchAlgorithm where
  name : String
  search : List Action → Goal → WorldState → Recorded (Option Plan)

namespace Search

/-- Multiples of an amount are computed in floating point. -/
instance : SMul Nat Amount := ⟨fun n weight => Float.ofNat n * weight⟩

/-- Estimates what it costs to bring about conditions that do not hold yet. -/
abbrev Heuristic (ε : Type) := Conditions → ε

namespace Heuristic

/-- Expects nothing. -/
def zero {α : Type} [Zero α] : Heuristic α := fun _ => 0

/-- Expects the same for every condition that does not hold. -/
def unsatisfiedCount {α : Type} [SMul Nat α] (weight : α) : Heuristic α :=
  fun unsatisfied => unsatisfied.size • weight

end Heuristic

/-- An action with its price in the state that is planned for. -/
structure Priced (α : Type) where
  action : Action
  cost : α

/-- Actions with their prices, in the order of their names. Actions of one name keep their
order. -/
def byName {α : Type} (priced : List (Priced α)) : List (Priced α) :=
  priced.mergeSort fun a b => a.action.name ≤ b.action.name

/-- Prices every action in a state, in catalog order, and sorts by name. -/
def priceAll (actions : List Action) (state : WorldState) : Recorded (List (Priced Amount)) := do
  let priced ← Recorded.mapList
    (fun action => do
      let cost ← action.price state
      return ⟨action, cost⟩)
    actions
  return byName priced

/-- The journal line with which a search ends. -/
def Report.events {σ α : Type} (report : Report σ α) (strategy goal : String) : List Event :=
  match report.ending with
  | .found .. => [.searchFinished strategy goal report.expansions]
  | .exhausted => [.searchExhausted strategy goal report.expansions]
  | .gaveUp budget => [.searchGaveUp strategy goal budget]
  | .unbounded => []

/-- A direction in which plans are searched: what is searched, given the priced actions, the wanted
conditions and the facts of the state, and how the steps back from the end of a search are put in
the order in which they run. -/
structure Direction where
  name : String
  problem : {α ε : Type} → List (Priced α) → (wanted facts : Conditions) → Heuristic ε →
    Problem Conditions Action α ε
  inOrder : List Action → List Action

namespace Direction

variable {ε : Type} [HAdd Amount ε ε] [Priority ε]

/-- Looks for a plan to a goal. A goal that holds already needs no search. -/
def search (direction : Direction) (heuristic : Heuristic ε) (budget : Option Nat)
    (actions : List Action) (goal : Goal) (state : WorldState) : Recorded (Option Plan) :=
  if goal.isSatisfied state.facts then return some ⟨goal, [], 0⟩
  else do
    let priced ← priceAll actions state
    let report := (direction.problem priced goal.preconditions state.facts heuristic).run budget
    Recorded.notes (report.events direction.name goal.name)
    match report.ending with
    | .found steps cost => return some ⟨goal, direction.inOrder steps, cost⟩
    | _ => return none

/-- The search algorithm of a direction. -/
def algorithm (direction : Direction) (heuristic : Heuristic ε) (budget : Option Nat) :
    SearchAlgorithm :=
  ⟨direction.name, direction.search heuristic budget⟩

end Direction

end Search

end ActionPlanning
