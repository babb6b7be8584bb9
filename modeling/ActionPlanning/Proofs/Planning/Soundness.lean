import ActionPlanning.Proofs.Planning.Forward
import ActionPlanning.Proofs.Planning.Regression

/-!
# Plans work

Whatever either search answers with is a plan that can be carried out, for any heuristic and any
budget and whether or not the actions are well formed. The searches differ only in the direction
in which they add up the prices.

## Main definitions

* `Plan.Works`: a plan of listed actions that leads from a state to a goal.

## Main results

* `search_works`: the plans of both searches work and cost what they say.
-/

namespace ActionPlanning

/-- A plan of listed actions that can be carried out from a state and leads to its goal; it is
empty only where the goal holds already. -/
structure Plan.Works (plan : Plan) (actions : List Action) (goal : Goal) (state : WorldState) :
    Prop where
  towards : plan.goal = goal
  listed : plan.actions ⊆ actions
  reaches : ∃ last, state.run? plan.actions = some last ∧ goal.isSatisfied last.facts = true
  nil_iff : plan.actions = [] ↔ goal.isSatisfied state.facts = true

namespace Search

open LockedDoor

section

variable {ε : Type} [HAdd Amount ε ε] [Priority ε] [LawfulPriority ε]

section

variable {heuristic : Heuristic ε} {budget : Option Nat} {actions : List Action} {goal : Goal}
  {state : WorldState} {plan : Plan}

/-- A plan of regression search works, and its prices are added from the last to the first. -/
theorem Regression.works_of_search
    (value : (regression.search heuristic budget actions goal state).value = some plan) :
    plan.Works actions goal state ∧ plan.cost = costBackward (·.costIn state) plan.actions := by
  obtain ⟨towards, answer⟩ := Direction.value_search_eq_some_iff.mp value
  obtain ⟨listed, ⟨first, chain, satisfied⟩, sameCost, empty⟩ := find?_sound answer
  exact ⟨⟨towards, listed, WorldState.reaches_of_residual? chain satisfied, empty⟩, sameCost⟩

/-- A plan of forward search works, and its prices are added from the first to the last. -/
theorem Forward.works_of_search
    (value : (forward.search heuristic budget actions goal state).value = some plan) :
    plan.Works actions goal state ∧ plan.cost = costForward (·.costIn state) plan.actions := by
  obtain ⟨towards, answer⟩ := Direction.value_search_eq_some_iff.mp value
  obtain ⟨listed, reaches, sameCost, empty⟩ := find?_sound answer
  exact ⟨⟨towards, listed, reaches, empty⟩, sameCost⟩

end

/-- The plans of both searches work. Regression search adds the prices from the last action to the
first, forward search from the first to the last. -/
theorem search_works (heuristic : Heuristic ε) (budget : Option Nat) (actions : List Action)
    (goal : Goal) (state : WorldState) (plan : Plan) :
    ((regression.search heuristic budget actions goal state).value = some plan →
      plan.Works actions goal state ∧
        plan.cost = costBackward (·.costIn state) plan.actions) ∧
    ((forward.search heuristic budget actions goal state).value = some plan →
      plan.Works actions goal state ∧
        plan.cost = costForward (·.costIn state) plan.actions) :=
  ⟨Regression.works_of_search, Forward.works_of_search⟩

end

/-- Both searches find a plan through the locked door, and it works. -/
theorem search_works_lockedDoor :
    (∃ plan, (regression.search .zero none [openDoor, fetchKey] enter outside).value = some plan ∧
      plan.Works [openDoor, fetchKey] enter outside ∧
      plan.cost = costBackward (·.costIn outside) plan.actions) ∧
    (∃ plan, (forward.search .zero none [openDoor, fetchKey] enter outside).value = some plan ∧
      plan.Works [openDoor, fetchKey] enter outside ∧
      plan.cost = costForward (·.costIn outside) plan.actions) := by
  obtain ⟨backward, foundBackward⟩ := Regression.exists_plan listed_enter completeChain_enter
  obtain ⟨onward, foundOnward⟩ := Forward.exists_plan listed_enter reaches_enter
  exact ⟨⟨backward, foundBackward, (search_works .zero none _ _ _ _).1 foundBackward⟩,
    ⟨onward, foundOnward, (search_works .zero none _ _ _ _).2 foundOnward⟩⟩

end Search

end ActionPlanning
