import ActionPlanning.Proofs.Planning.Forward
import ActionPlanning.Proofs.Planning.Regression
import Mathlib.Data.List.Infix

/-!
# Plans do not go in circles

A plan of forward search leads through states of which no two hold the same facts. A plan of
regression search, read backwards, leads through sets of required conditions of which no two are
the same. Neither search looks for repetitions: both read their plans off trails, on which no key
comes up twice. Free actions make no difference, and neither does the heuristic or the budget.

## Main definitions

* `Conditions.before?`: what must hold before a sequence of actions.

## Main results

* `Forward.states_of_trail`, `Regression.residuals_of_trail`: the keys of a trail.
* `plans_never_circle`: the plans of both searches do not go in circles.
-/

namespace ActionPlanning

/-- What must hold before a sequence of actions so that the wanted conditions hold after it. -/
def Conditions.before? (wanted : Conditions) : List Action → Option Conditions
  | [] => some wanted
  | a :: rest => (wanted.before? rest).bind a.regress?

namespace Search

section

variable {α ε : Type} [Zero α] [Add α] [LE α] {price : Action → α} {actions steps : List Action}
  {wanted facts required imagined : Conditions} {heuristic : Heuristic ε} {state : WorldState}
  {earlier : List Conditions} {cost : α}

/-- The keys of a trail of forward search are the facts of the states that its actions lead
through. -/
theorem Forward.states_of_trail
    (trail : (problem (priced price actions) wanted state.facts heuristic).Trail
      imagined earlier steps cost) :
    ∃ states : List WorldState, steps.reverse.inits.map state.run? = states.map some ∧
      states.map (·.facts) = (imagined :: earlier).reverse := by
  -- The last step of a trail is the last action of the run, so each step adds one state at the end.
  induction trail with
  | start => exact ⟨[state], rfl, rfl⟩
  | @step _ earlier steps _ _ trail picked _ ih =>
    obtain ⟨states, runs, keys⟩ := ih
    obtain ⟨-, ⟨last, run, rfl⟩, -⟩ := walk_iff.mp trail.walk
    obtain ⟨p, -, performable, rfl⟩ := mem_moves.mp picked.first.mem
    have next : state.run? (steps.reverse ++ [p.action]) = some (p.action.applyTo last) := by
      rw [WorldState.run?_concat, run]
      exact WorldState.step?_eq_some_iff.mpr ⟨performable, rfl⟩
    refine ⟨states ++ [p.action.applyTo last], ?_, ?_⟩
    · rw [List.reverse_cons, List.inits_append]
      simp [runs, next]
    · rw [List.map_append, keys]
      exact (List.reverse_cons ..).symm

/-- The keys of a trail of regression search are what must hold before the ends of its actions. -/
theorem Regression.residuals_of_trail
    (trail : (problem (priced price actions) wanted facts heuristic).Trail required earlier steps
      cost) :
    wanted.before? steps = some required ∧
      steps.tails.map wanted.before? = (required :: earlier).map some := by
  induction trail with
  | start => exact ⟨rfl, rfl⟩
  | @step _ _ steps _ _ _ picked _ ih =>
    obtain ⟨before, residuals⟩ := ih
    obtain ⟨p, -, -, left, regressed, rfl⟩ := mem_moves.mp picked.first.mem
    have next : wanted.before? (p.action :: steps) = some left := by
      rw [Conditions.before?, before, Option.bind_some, regressed]
    refine ⟨next, ?_⟩
    rw [List.tails_cons, List.map_cons, next, residuals]
    rfl

end

section

variable {α ε : Type} [Zero α] [Add α] [LE α] [DecidableLE α] [LawfulCost α] [HAdd α ε ε]
  [Priority ε] [LawfulPriority ε] {heuristic : Heuristic ε} {budget : Option Nat}
  {price : Action → α} {actions found : List Action} {wanted facts : Conditions}
  {state : WorldState} {cost : α}

/-- No two states that what forward search finds leads through hold the same facts. -/
theorem Forward.find?_never_circles (nonnegPrices : ∀ a ∈ actions, 0 ≤ price a)
    (answer : forward.find? heuristic budget price actions wanted state.facts
      = some (found, cost)) :
    ∃ states : List WorldState, found.inits.map state.run? = states.map some ∧
      (states.map (·.facts)).Nodup := by
  obtain ⟨imagined, earlier, trail⟩ := find?_trail nonnegPrices answer
  obtain ⟨states, runs, keys⟩ := states_of_trail trail
  rw [List.reverse_reverse] at runs
  exact ⟨states, runs, keys ▸ List.nodup_reverse.mpr trail.nodup⟩

/-- No two of the sets that are required along what regression search finds are the same. -/
theorem Regression.find?_never_circles (nonnegPrices : ∀ a ∈ actions, 0 ≤ price a)
    (answer : regression.find? heuristic budget price actions wanted facts = some (found, cost)) :
    ∃ residuals : List Conditions, found.tails.map wanted.before? = residuals.map some ∧
      residuals.Nodup := by
  obtain ⟨required, earlier, trail⟩ := find?_trail nonnegPrices answer
  exact ⟨required :: earlier, (residuals_of_trail trail).2, trail.nodup⟩

end

/-- Plans do not go in circles, whatever the heuristic and the budget. Run from the start, a plan
of forward search leads through states of which no two hold the same facts. Regressed from the
goal, a plan of regression search leads through pairwise distinct sets of required conditions. The
start and the end count in both. -/
theorem plans_never_circle {ε : Type} [HAdd Amount ε ε] [Priority ε] [LawfulPriority ε]
    (heuristic : Heuristic ε) (budget : Option Nat) (actions : List Action) (goal : Goal)
    (state : WorldState) (plan : Plan) :
    ((forward.search heuristic budget actions goal state).value = some plan →
      ∃ states : List WorldState, plan.actions.inits.map state.run? = states.map some ∧
        (states.map (·.facts)).Nodup) ∧
    ((regression.search heuristic budget actions goal state).value = some plan →
      ∃ residuals : List Conditions,
        plan.actions.tails.map goal.preconditions.before? = residuals.map some ∧
          residuals.Nodup) := by
  have nonneg (a : Action) (_ : a ∈ actions) := a.costIn_nonneg state
  constructor
  · intro value
    obtain ⟨-, answer⟩ := Direction.value_search_eq_some_iff.mp value
    exact Forward.find?_never_circles nonneg answer
  · intro value
    obtain ⟨-, answer⟩ := Direction.value_search_eq_some_iff.mp value
    exact Regression.find?_never_circles nonneg answer

open LockedDoor

/-- The plans through the locked door do not go in circles. -/
theorem plans_never_circle_lockedDoor :
    (∃ plan, (forward.search .zero none [openDoor, fetchKey] enter outside).value = some plan ∧
      ∃ states : List WorldState, plan.actions.inits.map outside.run? = states.map some ∧
        (states.map (·.facts)).Nodup) ∧
    (∃ plan, (regression.search .zero none [openDoor, fetchKey] enter outside).value = some plan ∧
      ∃ residuals : List Conditions,
        plan.actions.tails.map enter.preconditions.before? = residuals.map some ∧
          residuals.Nodup) := by
  obtain ⟨forward, foundForward⟩ := Forward.exists_plan listed_enter reaches_enter
  obtain ⟨backward, foundBackward⟩ := Regression.exists_plan listed_enter completeChain_enter
  exact ⟨⟨forward, foundForward, (plans_never_circle ..).1 foundForward⟩,
    ⟨backward, foundBackward, (plans_never_circle ..).2 foundBackward⟩⟩

end Search

end ActionPlanning
