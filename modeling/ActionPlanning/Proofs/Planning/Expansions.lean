import ActionPlanning.Proofs.Planning.Budget
import ActionPlanning.Proofs.Search.Log

/-!
# No work is repeated

Both searches may come to the same set of conditions again and again, over other actions or in
another order. They expand it again only at a strictly lower cost. Without a heuristic they expand
no set twice, and they expand the cheaper ones first. Prices may be zero or infinite, and sums of
prices are rounded.

## Main definitions

* `Direction.log`: the nodes that a search expands, in order.
* `Direction.Logs`: what that means of the search.

## Main results

* `Direction.logs_log`: the log lists the nodes expanded on the way to where the search ends.
* `work_not_repeated`: in what order they are expanded.
-/

namespace ActionPlanning.Search

variable {ε : Type} [HAdd Amount ε ε] [Priority ε]

namespace Direction

variable (direction : Direction) (heuristic : Heuristic ε) (budget : Option Nat)
  (actions : List Action) (goal : Goal) (state : WorldState)

/-- The nodes that a search expands, in order. A goal that holds already needs no search. -/
def log : List (Node Conditions Action Amount) :=
  if goal.isSatisfied state.facts then []
  else (direction.posed heuristic actions goal state).log budget

/-- What a search logs: nothing if the goal holds already, and otherwise the nodes that are expanded
on the way to the arena in which the search ends. -/
structure Logs (log : List (Node Conditions Action Amount)) : Prop where
  idle : goal.isSatisfied state.facts = true → log = []
  logged : goal.isSatisfied state.facts = false →
    (direction.posed heuristic actions goal state).Logged budget log

theorem logs_log [LawfulPriority ε] :
    direction.Logs heuristic budget actions goal state
      (direction.log heuristic budget actions goal state) := by
  refine ⟨fun holds => if_pos holds, fun fails => ?_⟩
  rw [log, if_neg (Bool.eq_false_iff.mp fails)]
  exact Problem.logged_log _ budget

variable {direction heuristic budget actions goal state} in
/-- A search that has to do something to come by a plan logs a node. -/
theorem Logs.ne_nil [LawfulPriority ε] {log : List (Node Conditions Action Amount)} {plan : Plan}
    (logs : direction.Logs heuristic budget actions goal state log)
    (lawful : direction.Lawful) (fails : goal.isSatisfied state.facts = false)
    (value : (direction.search heuristic budget actions goal state).value = some plan) :
    log ≠ [] := by
  obtain ⟨last, expanded, beyond, visits, ends, listed, -⟩ := (logs.logged fails).visited
  have some := expanded_ne_nil lawful fails value visits ends
  rintro rfl
  simp [some] at listed

variable {direction}

omit [HAdd Amount ε ε] [Priority ε] in
theorem Lawful.nonneg_posed (lawful : direction.Lawful) :
    (direction.posed heuristic actions goal state).Nonneg := by
  rw [posed, value_priceAll]
  exact lawful.nonneg fun a _ => a.costIn_nonneg state

theorem Lawful.blind_posed (lawful : direction.Lawful) :
    (direction.posed (.zero : Heuristic Amount) actions goal state).Blind := by
  intro key
  obtain ⟨left, same⟩ := lawful.estimates key
  exact same

theorem log_improves [LawfulPriority ε] (lawful : direction.Lawful) :
    (direction.log heuristic budget actions goal state).Pairwise Improves := by
  rw [log]
  split
  · exact .nil
  · exact Problem.log_improves (lawful.nonneg_posed heuristic actions goal state) budget

theorem log_onceInOrder (lawful : direction.Lawful) :
    OnceInOrder (direction.log .zero budget actions goal state) := by
  rw [log]
  split
  · exact ⟨.nil, .nil⟩
  · exact Problem.log_onceInOrder (lawful.blind_posed actions goal state)
      (lawful.nonneg_posed .zero actions goal state) budget

end Direction

variable [LawfulPriority ε]

/-- With any heuristic and any budget, both searches expand a set of conditions again only at a
strictly lower cost. Without a heuristic they expand none twice, and the costs of what they expand
never fall. -/
theorem work_not_repeated (heuristic : Heuristic ε) (budget : Option Nat) (actions : List Action)
    (goal : Goal) (state : WorldState) :
    (regression.Logs heuristic budget actions goal state
        (regression.log heuristic budget actions goal state) ∧
      (regression.log heuristic budget actions goal state).Pairwise Improves) ∧
    (forward.Logs heuristic budget actions goal state
        (forward.log heuristic budget actions goal state) ∧
      (forward.log heuristic budget actions goal state).Pairwise Improves) ∧
    OnceInOrder (regression.log .zero budget actions goal state) ∧
      OnceInOrder (forward.log .zero budget actions goal state) := by
  refine ⟨⟨?_, ?_⟩, ⟨?_, ?_⟩, ?_, ?_⟩
  · exact regression.logs_log heuristic budget actions goal state
  · exact Direction.log_improves heuristic budget actions goal state Regression.lawful
  · exact forward.logs_log heuristic budget actions goal state
  · exact Direction.log_improves heuristic budget actions goal state Forward.lawful
  · exact Direction.log_onceInOrder budget actions goal state Regression.lawful
  · exact Direction.log_onceInOrder budget actions goal state Forward.lawful

open LockedDoor in
/-- On the way through the locked door both searches expand some nodes, none of them twice, and the
costs never fall. -/
theorem work_not_repeated_lockedDoor :
    (regression.Logs .zero none [openDoor, fetchKey] enter outside
        (regression.log .zero none [openDoor, fetchKey] enter outside) ∧
      regression.log .zero none [openDoor, fetchKey] enter outside ≠ [] ∧
      OnceInOrder (regression.log .zero none [openDoor, fetchKey] enter outside)) ∧
    forward.Logs .zero none [openDoor, fetchKey] enter outside
        (forward.log .zero none [openDoor, fetchKey] enter outside) ∧
      forward.log .zero none [openDoor, fetchKey] enter outside ≠ [] ∧
      OnceInOrder (forward.log .zero none [openDoor, fetchKey] enter outside) := by
  have fails : enter.isSatisfied outside.facts = false := by decide +kernel
  obtain ⟨backward, foundBackward⟩ := Regression.exists_plan listed_enter completeChain_enter
  obtain ⟨onward, foundOnward⟩ := Forward.exists_plan listed_enter reaches_enter
  obtain ⟨⟨logs, -⟩, ⟨logsForward, -⟩, inOrder, inOrderForward⟩ :=
    work_not_repeated .zero none [openDoor, fetchKey] enter outside
  exact ⟨⟨logs, logs.ne_nil Regression.lawful fails foundBackward, inOrder⟩,
    logsForward, logsForward.ne_nil Forward.lawful fails foundOnward, inOrderForward⟩

end ActionPlanning.Search
