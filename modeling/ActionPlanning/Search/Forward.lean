import ActionPlanning.Search.Algorithm

/-!
# Forward search

Forward search plans in the direction of time. Its keys are imagined sets of facts. It starts from
the facts of the state, moves by every action that can be performed, and ends at facts that
satisfy the goal.
-/

namespace ActionPlanning.Search

namespace Forward

variable {α ε : Type}

/-- The moves out of a set of facts: the actions that can be performed there. -/
def moves (priced : List (Priced α)) (facts : Conditions) : List (Move Conditions Action α) :=
  priced.filterMap fun p =>
    if p.action.canPerform facts then some ⟨p.action, facts.apply p.action.effects, p.cost⟩
    else none

/-- The search for a plan forwards from the facts. Each imagined fact stems from the facts or from
an effect, which bounds the number of imagined sets. -/
def problem (priced : List (Priced α)) (wanted facts : Conditions) (heuristic : Heuristic ε) :
    Problem Conditions Action α ε where
  start := facts
  isGoal current := current.satisfies wanted
  moves := moves priced
  estimate current := heuristic (wanted.unsatisfiedBy current)
  keyBound := Nat.pow 2 (facts.size + (priced.flatMap fun p => p.action.effects.entries).length)

end Forward

/-- The direction forwards from the state. The steps back from the end of a search run in reverse
order. -/
def forward : Direction := ⟨"forward", Forward.problem, List.reverse⟩

/-- Forward search as a search algorithm. -/
abbrev Forward.algorithm {ε : Type} [HAdd Amount ε ε] [Priority ε] (heuristic : Heuristic ε)
    (budget : Option Nat) : SearchAlgorithm :=
  forward.algorithm heuristic budget

end ActionPlanning.Search
