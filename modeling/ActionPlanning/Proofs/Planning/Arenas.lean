import ActionPlanning.Proofs.Planning.Forward
import ActionPlanning.Proofs.Planning.Regression
import ActionPlanning.Proofs.Search.Calls

/-!
# The arenas of both searches

Both searches keep their nodes, the record of the cheapest ones and the frontier in agreement, with
any heuristic and any prices that are not negative. Prices may be zero or infinite, and their sums
are rounded.

## Main results

* `arenas_stay_sound`: every arena that one of the searches comes to is sound.
-/

namespace ActionPlanning

namespace LockedDoor

/-- Looking for a way in from the open door back to the start. -/
def backwards : Search.Problem Conditions Action Amount Amount :=
  Search.Regression.problem (Search.priced (·.costIn outside) [openDoor, fetchKey])
    enter.preconditions outside.facts .zero

/-- Looking for a way in from the start on. -/
def forwards : Search.Problem Conditions Action Amount Amount :=
  Search.Forward.problem (Search.priced (·.costIn outside) [openDoor, fetchKey])
    enter.preconditions outside.facts .zero

end LockedDoor

namespace Search

/-- Every arena that a search comes to, whether backwards or forwards, is sound, whatever the
heuristic, as long as no action has a negative price. -/
theorem arenas_stay_sound {ε : Type} [HAdd Amount ε ε] [Priority ε] [LawfulPriority ε]
    (heuristic : Heuristic ε) (price : Action → Amount)
    (actions : List Action) (wanted facts : Conditions)
    (nonnegPrices : ∀ a ∈ actions, 0 ≤ price a) :
    (Regression.problem (priced price actions) wanted facts heuristic).StaysSound ∧
      (Forward.problem (priced price actions) wanted facts heuristic).StaysSound := by
  constructor
  · exact (Regression.nonneg nonnegPrices).staysSound
  · exact (Forward.nonneg nonnegPrices).staysSound

open LockedDoor

/-- The arenas in which the searches for a way through the locked door end are sound. -/
theorem arenas_stay_sound_lockedDoor :
    (∀ a ∈ [openDoor, fetchKey], 0 ≤ a.costIn outside) ∧
    (∃ arena index handedOut due, backwards.ComesTo arena (index :: handedOut) due ∧
      backwards.Sound arena (index :: handedOut)) ∧
    ∃ arena index handedOut due, forwards.ComesTo arena (index :: handedOut) due ∧
      forwards.Sound arena (index :: handedOut) := by
  have nonneg (a : Action) (_ : a ∈ [openDoor, fetchKey]) := a.costIn_nonneg outside
  have closed : ¬ outside.facts.satisfies enter.preconditions = true := by decide +kernel
  refine ⟨nonneg, ?_, ?_⟩
  · obtain ⟨steps, cost, answer, -⟩ :=
      (Regression.cheapest nonneg).exists_answer ⟨listed_enter, completeChain_enter⟩
    obtain ⟨holds, -⟩ | ⟨-, _, -, ending⟩ := Direction.find?_cases answer
    · exact absurd holds closed
    obtain ⟨arena, index, handedOut, due, comes, -⟩ := Problem.exists_comesTo_of_found ending
    exact ⟨arena, index, handedOut, due, comes,
      (arenas_stay_sound .zero _ _ _ _ nonneg).1 arena _ due comes⟩
  · obtain ⟨steps, cost, answer, -⟩ :=
      (Forward.cheapest nonneg).exists_answer ⟨listed_enter, reaches_enter⟩
    obtain ⟨holds, -⟩ | ⟨-, _, -, ending⟩ := Direction.find?_cases answer
    · exact absurd holds closed
    obtain ⟨arena, index, handedOut, due, comes, -⟩ := Problem.exists_comesTo_of_found ending
    exact ⟨arena, index, handedOut, due, comes,
      (arenas_stay_sound .zero _ _ _ _ nonneg).2 arena _ due comes⟩

end Search

end ActionPlanning
