import ActionPlanning.Proofs.Amount.Unsigned
import ActionPlanning.Proofs.Planning.Forward
import ActionPlanning.Proofs.Planning.Regression
import ActionPlanning.Proofs.Search.Stored
import ActionPlanning.Proofs.Search.Termination

/-!
# What estimates cannot change

A heuristic may expect too much, something negative, or nothing that is a number; it may yield
whatever can be added to an amount and has a place in the queue. It decides in which order nodes are
expanded, and so which plan is found. But it keeps no search from coming to an end, and a search
that comes to its end without a plan has expanded whatever can be reached. So whether a plan is
found does not depend on the heuristic.

## Main results

* `searches_end`: both searches end after finitely many pops.
* `Direction.isSome_find?_iff`, `Regression.isSome_find?_iff`, `Forward.isSome_find?_iff`: when a
  plan is found.
* `found_with_any_heuristic`: if one is found with some heuristic, then one is found with any.
-/

namespace ActionPlanning.Search

variable {ε : Type}

/-- Without a budget both searches end, whatever is estimated: they pop no more nodes than there
are keys and amounts, and then either nothing is left to pop or the goal was reached. -/
theorem searches_end [HAdd Amount ε ε] [Priority ε] [LawfulPriority ε] (heuristic : Heuristic ε)
    (actions : List Action) (goal : Goal) (state : WorldState) :
    let prices := (priceAll actions state).value
    let backwards := Regression.problem prices goal.preconditions state.facts heuristic
    let forwards := Forward.problem prices goal.preconditions state.facts heuristic
    backwards.EndsWithin (backwards.keyBound * UInt64.size) (backwards.run none).ending ∧
      forwards.EndsWithin (forwards.keyBound * UInt64.size) (forwards.run none).ending := by
  rw [value_priceAll]
  have nonneg (a : Action) (_ : a ∈ actions) := a.costIn_nonneg state
  exact ⟨Problem.endsWithin (Regression.nonneg nonneg) Regression.bounded,
    Problem.endsWithin (Forward.nonneg nonneg) Forward.bounded⟩

open LockedDoor in
/-- On the way through the locked door both searches end even if no estimate is a number, and all of
them come before every number. -/
theorem searches_end_lockedDoor :
    let prices := (priceAll [openDoor, fetchKey] outside).value
    let estimate : Heuristic Stored := fun _ => .negativeNaN
    let backwards := Regression.problem prices enter.preconditions outside.facts estimate
    let forwards := Forward.problem prices enter.preconditions outside.facts estimate
    backwards.EndsWithin (backwards.keyBound * UInt64.size) (backwards.run none).ending ∧
      forwards.EndsWithin (forwards.keyBound * UInt64.size) (forwards.run none).ending :=
  searches_end (fun _ => Stored.negativeNaN) [openDoor, fetchKey] enter outside

section

variable {κ α : Type} [Zero α] [Add α] [LE α] [DecidableLE α] [HAdd α ε ε] [Priority ε]
  [LawfulPriority ε] [LawfulCost α] [CountedCost α]

/-- A search without a budget has an answer exactly if some walk leads to a goal. -/
theorem Problem.isSome_answer_iff [Ord κ] [Std.TransOrd κ] [Std.LawfulEqOrd κ]
    {problem : Problem κ Action α ε} (nonneg : problem.Nonneg) (bounded : problem.Bounded) :
    (problem.run none).answer.isSome = true ↔
      ∃ key steps cost, problem.isGoal key = true ∧
        problem.Walk problem.start 0 key steps cost := by
  constructor
  · intro answered
    obtain ⟨⟨steps, cost⟩, answer⟩ := Option.isSome_iff_exists.mp answered
    obtain ⟨key, goal, walk⟩ := run_found (Report.answer_eq_some_iff.mp answer)
    exact ⟨key, steps, cost, goal, walk⟩
  · intro reachable
    obtain ⟨key, steps, cost, goal, walk⟩ := reachable
    -- There is no other way to end: a search that ran dry would have seen the goal.
    cases ending : (problem.run none).ending with
    | found found least => rw [Report.answer_eq_some_iff.mpr ending, Option.isSome_some]
    | exhausted => exact absurd goal (Bool.eq_false_iff.mp (run_exhausted nonneg ending walk))
    | gaveUp limit => exact absurd ending (run_none_ne_gaveUp problem limit)
    | unbounded => exact absurd ending (run_ne_unbounded nonneg bounded none)

variable {price : Action → α} {actions : List Action} {wanted facts : Conditions}
  {heuristic : Heuristic ε} {state : WorldState}

/-- Something is found exactly if the goal holds or some walk leads to a goal of the search. -/
theorem Direction.isSome_find?_iff {direction : Direction} (lawful : direction.Lawful)
    (nonnegPrices : ∀ a ∈ actions, 0 ≤ price a) :
    (direction.find? heuristic none price actions wanted facts).isSome = true ↔
      facts.satisfies wanted = true ∨ ∃ key steps cost,
        (direction.problem (priced price actions) wanted facts heuristic).isGoal key = true ∧
          (direction.problem (priced price actions) wanted facts heuristic).Walk
            (direction.problem (priced price actions) wanted facts heuristic).start 0 key steps
              cost := by
  rw [find?]
  split
  case isTrue holds => simp [holds]
  case isFalse fails =>
    rw [Option.isSome_map,
      Problem.isSome_answer_iff (lawful.nonneg nonnegPrices) lawful.bounded, or_iff_right fails]

/-- Regression search finds a plan exactly if there is a complete chain of listed actions. -/
theorem Regression.isSome_find?_iff (nonnegPrices : ∀ a ∈ actions, 0 ≤ price a) :
    (regression.find? heuristic none price actions wanted facts).isSome = true ↔
      ∃ chain, chain ⊆ actions ∧ facts.CompleteChain wanted chain := by
  rw [Direction.isSome_find?_iff lawful nonnegPrices]
  constructor
  · rintro (holds | ⟨required, steps, cost, satisfied, walk⟩)
    · exact ⟨[], List.nil_subset _, wanted, rfl, holds⟩
    · obtain ⟨listed, chain, -⟩ := walk_iff.mp walk
      exact ⟨steps, listed, required, chain, satisfied⟩
  · intro complete
    obtain ⟨steps, listed, required, chain, satisfied⟩ := complete
    exact .inr ⟨required, steps, _, satisfied, walk_iff.mpr ⟨listed, chain, rfl⟩⟩

/-- Forward search finds a plan exactly if some run of listed actions reaches the goal. -/
theorem Forward.isSome_find?_iff (nonnegPrices : ∀ a ∈ actions, 0 ≤ price a) :
    (forward.find? heuristic none price actions wanted state.facts).isSome = true ↔
      ∃ run, run ⊆ actions ∧ state.Reaches wanted run := by
  rw [Direction.isSome_find?_iff lawful nonnegPrices]
  constructor
  · rintro (holds | ⟨imagined, steps, cost, satisfied, walk⟩)
    · exact ⟨[], List.nil_subset _, WorldState.reaches_nil_iff.mpr holds⟩
    · obtain ⟨listed, ⟨last, run, rfl⟩, -⟩ := walk_iff.mp walk
      exact ⟨steps.reverse, fun a member => listed (List.mem_reverse.mp member), last, run,
        satisfied⟩
  · intro reached
    obtain ⟨run, listed, last, isRun, satisfied⟩ := reached
    refine .inr ⟨last.facts, run.reverse, _, satisfied, walk_iff.mpr ⟨?_, ⟨last, ?_, rfl⟩, rfl⟩⟩
    · exact fun a member => listed (List.mem_reverse.mp member)
    · rwa [List.reverse_reverse]

end

/-- Without a budget both searches find a plan with one heuristic exactly if they find one with
any other. -/
theorem found_with_any_heuristic {δ : Type} [HAdd Amount ε ε] [Priority ε] [LawfulPriority ε]
    [HAdd Amount δ δ] [Priority δ] [LawfulPriority δ] (heuristic : Heuristic ε)
    (other : Heuristic δ) (actions : List Action) (goal : Goal) (state : WorldState) :
    ((regression.search heuristic none actions goal state).value.isSome = true ↔
      (regression.search other none actions goal state).value.isSome = true) ∧
    ((forward.search heuristic none actions goal state).value.isSome = true ↔
      (forward.search other none actions goal state).value.isSome = true) := by
  have nonneg (a : Action) (_ : a ∈ actions) := a.costIn_nonneg state
  simp only [Direction.value_search, Option.isSome_map]
  constructor
  · rw [Regression.isSome_find?_iff nonneg, Regression.isSome_find?_iff nonneg]
  · rw [Forward.isSome_find?_iff nonneg, Forward.isSome_find?_iff nonneg]

open LockedDoor in
/-- A way through the locked door is found even if no estimate is a number, and all of them come
before every number. -/
theorem found_with_any_heuristic_lockedDoor :
    let estimate : Heuristic Stored := fun _ => .negativeNaN
    (regression.search estimate none [openDoor, fetchKey] enter outside).value.isSome = true ∧
      (forward.search estimate none [openDoor, fetchKey] enter outside).value.isSome = true := by
  intro estimate
  obtain ⟨backward, foundBackward⟩ := Regression.exists_plan listed_enter completeChain_enter
  obtain ⟨onward, foundOnward⟩ := Forward.exists_plan listed_enter reaches_enter
  obtain ⟨backwards, forwards⟩ :=
    found_with_any_heuristic estimate .zero [openDoor, fetchKey] enter outside
  exact ⟨backwards.mpr (Option.isSome_iff_exists.mpr ⟨_, foundBackward⟩),
    forwards.mpr (Option.isSome_iff_exists.mpr ⟨_, foundOnward⟩)⟩

end ActionPlanning.Search
