import ActionPlanning.Search.Algorithm

/-!
# Regression search

Regression search plans backwards. Its keys are sets of required conditions: what must hold before
the partial plan found so far. It starts from the conditions of the goal and ends at a set that
the state satisfies. Expanding a set considers every action with an effect that is required and
that the state does not provide. Conditions the state does provide stay in the set, so that no
earlier action may undo them.
-/

namespace ActionPlanning

/-- What must hold before an action so that `required` holds after it; none if the action cannot
stand there. Its effects must not conflict with what is required, and its preconditions must not
conflict with what is still required before it. -/
def Action.regress? (a : Action) (required : Conditions) : Option Conditions :=
  if a.effects.conflictsWith required then none
  else
    let before := required.unsatisfiedBy a.effects
    if a.preconditions.conflictsWith before then none
    else some (before.apply a.preconditions)

namespace Search

namespace Regression

variable {α ε : Type}

/-- The moves out of a required set: actions that bring about something the state does not
provide, and what is required before them. -/
def moves (priced : List (Priced α)) (facts required : Conditions) :
    List (Move Conditions Action α) :=
  let unsatisfied := required.unsatisfiedBy facts
  priced.filterMap fun p =>
    if p.action.achievesAny unsatisfied then
      (p.action.regress? required).map fun before => ⟨p.action, before, p.cost⟩
    else none

/-- The search for a plan backwards from the wanted conditions. Each required condition stems from
the wanted ones or from a precondition, which bounds the number of required sets. -/
def problem (priced : List (Priced α)) (wanted facts : Conditions) (heuristic : Heuristic ε) :
    Problem Conditions Action α ε where
  start := wanted
  isGoal required := facts.satisfies required
  moves := moves priced facts
  estimate required := heuristic (required.unsatisfiedBy facts)
  keyBound :=
    Nat.pow 2 (wanted.size + (priced.flatMap fun p => p.action.preconditions.entries).length)

end Regression

/-- The direction backwards from the goal. The steps back from the end of a search run in the order
in which they are met. -/
def regression : Direction := ⟨"regression", Regression.problem, id⟩

/-- Regression search as a search algorithm. -/
abbrev Regression.algorithm {ε : Type} [HAdd Amount ε ε] [Priority ε] (heuristic : Heuristic ε)
    (budget : Option Nat) : SearchAlgorithm :=
  regression.algorithm heuristic budget

end Search

end ActionPlanning
