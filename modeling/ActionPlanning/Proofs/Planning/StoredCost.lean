import ActionPlanning.Plan.Scoring
import ActionPlanning.Proofs.Amount.Totals
import ActionPlanning.Proofs.Planning.Soundness

/-!
# The cost a plan is stored with

A plan carries the cost that the search has added up, and its cost can be evaluated again in a
state. Both are equal as numbers for what forward search finds, which adds the prices up in the
order of the evaluation. Regression search adds them from the last to the first. For what it finds
the two are equal whenever the order makes no difference: for at most two actions, and for prices
that add up without rounding, such as whole numbers that are not too large. In general they differ.

## Main results

* `stored_cost`: when the stored cost is the cost in the state, and what the net value then is.
* `stored_cost_differs`: three prices for which the stored cost of a found plan is another one.
-/

namespace ActionPlanning

/-! ## A locked door in three steps -/

namespace LockedDoor

/-- Fetching the key at a price. -/
def fetchKeyFor (price : Amount) : Action := { fetchKey with cost := .fixed price }

/-- Unlocking the door at a price, which takes the key. -/
def unlockFor (price : Amount) : Action where
  name := "unlock"
  preconditions := .ofList [⟨"hasKey", .flag true⟩]
  effects := .ofList [⟨"unlocked", .flag true⟩]
  cost := .fixed price

/-- Pushing the unlocked door open at a price. -/
def pushFor (price : Amount) : Action where
  name := "push"
  preconditions := .ofList [⟨"unlocked", .flag true⟩]
  effects := .ofList [⟨"doorOpen", .flag true⟩]
  cost := .fixed price

/-- The three steps through the door at their prices. -/
def threeSteps (fetch unlock push : Amount) : List Action :=
  [fetchKeyFor fetch, unlockFor unlock, pushFor push]

variable {fetch unlock push : Amount} {chain : List Action} {required : Conditions}

/-- Every chain of the three steps is an end of them. -/
theorem chain_threeSteps (listed : chain ⊆ threeSteps fetch unlock push)
    (chained : outside.facts.residual? enter.preconditions chain = some required) :
    chain = [] ∧ required = .ofList [⟨"doorOpen", .flag true⟩] ∨
    chain = [pushFor push] ∧ required = .ofList [⟨"unlocked", .flag true⟩] ∨
    chain = [unlockFor unlock, pushFor push] ∧ required = .ofList [⟨"hasKey", .flag true⟩] ∨
    chain = threeSteps fetch unlock push ∧ required = ∅ := by
  induction chain generalizing required with
  | nil => exact .inl ⟨rfl, (Option.some.inj chained).symm⟩
  | cons a rest ih =>
    obtain ⟨listedA, listedRest⟩ := List.cons_subset.mp listed
    obtain ⟨behind, chainedRest, achieves, regressed⟩ :=
      Conditions.residual?_cons_eq_some_iff.mp chained
    have isStep : a = fetchKeyFor fetch ∨ a = unlockFor unlock ∨ a = pushFor push := by
      simpa [threeSteps] using listedA
    -- Before every end of the three steps just one step brings about what is lacking.
    rcases ih listedRest chainedRest with
      ⟨rfl, rfl⟩ | ⟨rfl, rfl⟩ | ⟨rfl, rfl⟩ | ⟨rfl, rfl⟩
    · rcases isStep with rfl | rfl | rfl
      · exact Bool.noConfusion achieves
      · exact Bool.noConfusion achieves
      · exact .inr (.inl ⟨rfl, (Option.some.inj regressed).symm⟩)
    · rcases isStep with rfl | rfl | rfl
      · exact Bool.noConfusion achieves
      · exact .inr (.inr (.inl ⟨rfl, (Option.some.inj regressed).symm⟩))
      · exact Bool.noConfusion achieves
    · rcases isStep with rfl | rfl | rfl
      · exact .inr (.inr (.inr ⟨rfl, (Option.some.inj regressed).symm⟩))
      · exact Bool.noConfusion achieves
      · exact Bool.noConfusion achieves
    · rcases isStep with rfl | rfl | rfl <;> exact Bool.noConfusion achieves

/-- Nothing less than the three steps leads through the door. -/
theorem eq_threeSteps_of_completeChain (listed : chain ⊆ threeSteps fetch unlock push)
    (complete : outside.facts.CompleteChain enter.preconditions chain) :
    chain = threeSteps fetch unlock push := by
  obtain ⟨required, chained, satisfied⟩ := complete
  rcases chain_threeSteps listed chained with
    ⟨-, rfl⟩ | ⟨-, rfl⟩ | ⟨-, rfl⟩ | ⟨same, -⟩
  · exact Bool.noConfusion satisfied
  · exact Bool.noConfusion satisfied
  · exact Bool.noConfusion satisfied
  · exact same

/-- Regression search finds the three steps and adds their prices from the last to the first. -/
theorem value_search_threeSteps (fetch unlock push : Amount) :
    (Search.regression.search .zero none (threeSteps fetch unlock push) enter outside).value
      = some ⟨enter, threeSteps fetch unlock push,
          Search.costBackward (·.costIn outside) (threeSteps fetch unlock push)⟩ := by
  have cheapest : Search.Cheapest _ _ (Search.regression.find? (fun _ => 0) none
      (·.costIn outside) (threeSteps fetch unlock push) enter.preconditions outside.facts) :=
    Search.Regression.cheapest fun a _ => a.costIn_nonneg outside
  obtain ⟨found, c, answer, -⟩ :=
    cheapest.exists_answer ⟨List.Subset.refl _, ∅, rfl, rfl⟩
  obtain ⟨⟨listed, complete⟩, rfl⟩ := cheapest.sound answer
  rw [eq_threeSteps_of_completeChain listed complete] at answer
  exact (Search.Direction.value_search ..).trans (congrArg (Option.map _) answer)

end LockedDoor

namespace Search

open Amount LockedDoor

variable {price : Action → Amount} {actions : List Action} {state : WorldState} {plan : Plan}

/-! ## Directions of adding -/

theorem costForward_eq_foldl (price : Action → Amount) (actions : List Action) :
    costForward price actions = (actions.map price).foldl (· + ·) 0 := by
  rw [costForward, List.foldl_map]

theorem costBackward_eq_foldl (price : Action → Amount) (actions : List Action) :
    costBackward price actions = (actions.map price).reverse.foldl (· + ·) 0 := by
  rw [costBackward, List.foldl_reverse, List.foldr_map]

theorem hasNumber_zero : (0 : Amount).HasNumber 0 := .zero .positive

theorem hasNumber_neg_zero : (-0.0 : Amount).HasNumber 0 := .zero .negative

/-- Added from the first to the last, the prices come to the cost in the state. -/
theorem exists_hasNumber_costForward (actions : List Action) (state : WorldState) :
    ∃ n, (costForward (·.costIn state) actions).HasNumber n ∧
      (Plan.costOf actions state).HasNumber n := by
  rw [costForward_eq_foldl]
  refine exists_hasNumber_foldl (fun x listed => ?_) hasNumber_zero hasNumber_neg_zero
  obtain ⟨a, -, rfl⟩ := List.mem_map.mp listed
  exact a.costIn_nonneg state

/-- The cost in the state equals another amount as the sum from the first to the last does. -/
theorem beq_costOf_iff {cost : Amount} {n : Nat} (number : cost.HasNumber n) :
    (cost == Plan.costOf actions state) = true ↔
      (cost == costForward (·.costIn state) actions) = true := by
  obtain ⟨m, forwards, evaluated⟩ := exists_hasNumber_costForward actions state
  rw [number.beq_iff evaluated, number.beq_iff forwards]

/-- The prices of at most two actions may be added in either direction. -/
theorem beq_costForward_of_length_le (few : actions.length ≤ 2) :
    (costBackward (·.costIn state) actions == costForward (·.costIn state) actions) = true := by
  have number (a : Action) := exists_hasNumber (a.costIn_nonneg state)
  match actions, few with
  | [], _ => exact (hasNumber_zero.beq_iff hasNumber_zero).mpr rfl
  | [a], _ =>
    obtain ⟨n, numberA, -⟩ := number a
    exact ((hasNumber_zero.add numberA).beq_iff (hasNumber_zero.add numberA)).mpr rfl
  | [a, b], _ =>
    obtain ⟨n, numberA, -⟩ := number a
    obtain ⟨m, numberB, -⟩ := number b
    have first := hasNumber_zero.add numberA
    have last := hasNumber_zero.add numberB
    -- The first price is added to zero exactly, and two prices may change places.
    rw [Nat.add_comm (units 0), nearest_units_add_zero numberA] at first
    rw [Nat.add_comm (units 0), nearest_units_add_zero numberB] at last
    refine ((last.add numberA).beq_iff (first.add numberB)).mpr ?_
    rw [Nat.add_comm]

/-- Prices that add up without rounding may be added in either direction. -/
theorem beq_costForward_of_unrounded (unrounded : Unrounded (actions.map (·.costIn state))) :
    (costBackward (·.costIn state) actions == costForward (·.costIn state) actions) = true := by
  obtain ⟨n, forwards, backwards⟩ :=
    unrounded.exists_hasNumber_foldl hasNumber_zero hasNumber_zero
  rw [costForward_eq_foldl, costBackward_eq_foldl]
  exact (backwards.beq_iff forwards).mpr rfl

/-! ## The stored cost -/

/-- The net value of a plan is the value of its goal minus its cost, if that is its cost in the
state. -/
theorem alike_netValue (same : (plan.cost == plan.costIn state) = true) :
    (plan.goal.valueIn state - plan.cost).Alike
      ((ScoredPlan.mk plan .valueMinusCost).netValue state) :=
  alike_sub (plan.goal.valueIn state) same

/-- The cost that a plan of forward search is stored with is its cost in the state. For a plan of
regression search it is exactly if adding the prices from the last to the first comes to the same
as adding them from the first to the last, as it does for at most two actions and for prices that
add up without rounding. Where it is, the net value is the value of the goal minus that cost. -/
theorem stored_cost {ε : Type} [HAdd Amount ε ε] [Priority ε] [LawfulPriority ε]
    (heuristic : Heuristic ε) (budget : Option Nat) (actions : List Action) (goal : Goal)
    (state : WorldState) (plan : Plan) :
    ((forward.search heuristic budget actions goal state).value = some plan →
      (plan.cost == plan.costIn state) = true ∧
      (goal.valueIn state - plan.cost).Alike
        ((ScoredPlan.mk plan .valueMinusCost).netValue state)) ∧
    ((regression.search heuristic budget actions goal state).value = some plan →
      ((plan.cost == plan.costIn state) = true ↔
        (costBackward (·.costIn state) plan.actions
          == costForward (·.costIn state) plan.actions) = true) ∧
      (plan.actions.length ≤ 2 ∨ Unrounded (plan.actions.map (·.costIn state)) →
        (plan.cost == plan.costIn state) = true) ∧
      ((plan.cost == plan.costIn state) = true →
        (goal.valueIn state - plan.cost).Alike
          ((ScoredPlan.mk plan .valueMinusCost).netValue state))) := by
  constructor
  · intro found
    obtain ⟨works, cost⟩ := Forward.works_of_search found
    obtain ⟨n, forwards, evaluated⟩ := exists_hasNumber_costForward plan.actions state
    have same : (plan.cost == plan.costIn state) = true :=
      ((cost ▸ forwards).beq_iff evaluated).mpr rfl
    exact ⟨same, works.towards ▸ alike_netValue same⟩
  · intro found
    obtain ⟨works, cost⟩ := Regression.works_of_search found
    have nonneg : 0 ≤ plan.cost := cost ▸ costBackward_nonneg fun a _ => a.costIn_nonneg state
    obtain ⟨n, number, -⟩ := exists_hasNumber nonneg
    have same_iff : (plan.cost == plan.costIn state) = true ↔
        (plan.cost == costForward (·.costIn state) plan.actions) = true := beq_costOf_iff number
    rw [cost] at same_iff ⊢
    refine ⟨same_iff, fun plain => same_iff.mpr ?_, fun same => ?_⟩
    · exact plain.elim beq_costForward_of_length_le beq_costForward_of_unrounded
    · rw [← cost] at same ⊢
      exact works.towards ▸ alike_netValue same

/-- At a price of one for each of the three steps, both searches store the cost in the state, and
the net value of the plan that regression search finds is minus that cost. -/
theorem stored_cost_threeSteps :
    (∃ plan, (forward.search .zero none (threeSteps 1 1 1) enter outside).value = some plan ∧
      (plan.cost == plan.costIn outside) = true) ∧
    Unrounded ((threeSteps 1 1 1).map (·.costIn outside)) ∧
    ∃ plan, (regression.search .zero none (threeSteps 1 1 1) enter outside).value = some plan ∧
      (plan.cost == plan.costIn outside) = true ∧
      (enter.valueIn outside - plan.cost).Alike
        ((ScoredPlan.mk plan .valueMinusCost).netValue outside) := by
  have one : (1 : Amount).HasNumber (1023 * 2 ^ 52) := by
    have unsigned : (1 : Amount).toBits.toNat ≤ infinite := by decide +kernel
    exact Unsigned.hasNumber unsigned
  have whole : ∃ n, (1 : Amount).HasNumber n ∧ units n = 1 * 2 ^ 1074 :=
    ⟨_, one, by decide +kernel⟩
  have unrounded : Unrounded ((threeSteps 1 1 1).map (·.costIn outside)) :=
    ⟨1074, [1, 1, 1], .cons whole (.cons whole (.cons whole .nil)), by decide⟩
  have reaches : outside.Reaches enter.preconditions (threeSteps 1 1 1) := by decide +kernel
  obtain ⟨run, c, reached, -⟩ :=
    (Forward.cheapest fun a _ => a.costIn_nonneg outside).exists_answer
      ⟨List.Subset.refl (threeSteps 1 1 1), reaches⟩
  have byForward : (forward.search .zero none (threeSteps 1 1 1) enter outside).value
      = some ⟨enter, run, c⟩ :=
    (Direction.value_search ..).trans (congrArg (Option.map _) reached)
  obtain ⟨same, -⟩ := (stored_cost .zero none _ enter outside _).1 byForward
  have byRegression := value_search_threeSteps 1 1 1
  obtain ⟨-, plain, net⟩ := (stored_cost .zero none _ enter outside _).2 byRegression
  exact ⟨⟨_, byForward, same⟩, unrounded, _, byRegression, plain (.inr unrounded),
    net (plain (.inr unrounded))⟩

/-- At prices of `0.1`, `0.2` and `0.3` the stored cost is `0.6`, and the cost in the state is the
next greater amount. The net value is not the value of the goal minus the stored cost. -/
theorem stored_cost_differs :
    ∃ plan, (regression.search .zero none (threeSteps 0.1 0.2 0.3) enter outside).value
        = some plan ∧
      (plan.cost == plan.costIn outside) = false ∧
      ¬ (enter.valueIn outside - plan.cost).Alike
        ((ScoredPlan.mk plan .valueMinusCost).netValue outside) :=
  ⟨_, value_search_threeSteps 0.1 0.2 0.3, by decide +kernel, by unfold Alike; decide +kernel⟩

end Search

end ActionPlanning
