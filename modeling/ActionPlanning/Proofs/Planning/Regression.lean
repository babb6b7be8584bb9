import ActionPlanning.Proofs.Amount.Cost
import ActionPlanning.Proofs.Planning.Chain
import ActionPlanning.Proofs.Planning.Direction
import ActionPlanning.Proofs.Planning.Keys
import ActionPlanning.Proofs.Search.Trail
import ActionPlanning.Search.Regression

/-!
# What regression search finds

The walks of regression search are the chains of listed actions, and what it ends with is a
complete one. With consistent estimates and without a budget it ends with a cheapest complete chain,
or with none if there is none.

## Main results

* `Regression.walk_iff`: walks are chains.
* `Regression.find?_trail`: what is found lies on a trail from the wanted conditions.
* `Regression.cheapest_of_consistent`: the answer is a cheapest complete chain.
-/

namespace ActionPlanning.Search.Regression

variable {α ε : Type}

section

variable {price : Action → α} {actions steps : List Action} {wanted facts required : Conditions}
  {heuristic : Heuristic ε} {move : Move Conditions Action α}

theorem mem_moves {prices : List (Priced α)} :
    move ∈ moves prices facts required ↔
      ∃ p ∈ prices, p.action.achievesAny (required.unsatisfiedBy facts) = true ∧
        ∃ before, p.action.regress? required = some before ∧ ⟨p.action, before, p.cost⟩ = move := by
  simp only [moves, List.mem_filterMap, Option.ite_none_right_eq_some, Option.map_eq_some_iff]

/-- A walk of regression search is a chain of listed actions, at the cost of the chain. -/
theorem walk_iff [Zero α] [Add α] {cost : α} :
    (problem (priced price actions) wanted facts heuristic).Walk wanted 0 required steps cost ↔
      steps ⊆ actions ∧ facts.residual? wanted steps = some required ∧
        cost = costBackward price steps := by
  constructor
  · intro walk
    induction walk with
    | stay => exact ⟨List.nil_subset _, rfl, rfl⟩
    | step _ member ih =>
      obtain ⟨listed, chain, rfl⟩ := ih
      obtain ⟨p, tried, achieves, before, regressed, rfl⟩ := mem_moves.mp member
      obtain ⟨listedP, sameCost⟩ := mem_priced.mp tried
      refine ⟨List.cons_subset.mpr ⟨listedP, listed⟩, ?_, ?_⟩
      · exact Conditions.residual?_cons_eq_some_iff.mpr ⟨_, chain, achieves, regressed⟩
      · rw [costBackward_cons, sameCost]
  · intro isChain
    obtain ⟨listed, chain, rfl⟩ := isChain
    induction steps generalizing required with
    | nil =>
      obtain rfl := Option.some.inj chain
      exact .stay
    | cons a rest ih =>
      obtain ⟨behind, chainRest, achieves, regressed⟩ :=
        Conditions.residual?_cons_eq_some_iff.mp chain
      obtain ⟨listedA, listedRest⟩ := List.cons_subset.mp listed
      have member : ⟨a, required, price a⟩ ∈ moves (priced price actions) facts behind :=
        mem_moves.mpr ⟨⟨a, price a⟩, mem_priced.mpr ⟨listedA, rfl⟩, achieves, required,
          regressed, rfl⟩
      exact .step (ih listedRest chainRest) member

theorem nonneg [Zero α] [LE α] [Add α] (nonneg : ∀ a ∈ actions, 0 ≤ price a) :
    (problem (priced price actions) wanted facts heuristic).Nonneg := by
  intro required move member
  obtain ⟨p, tried, -, before, -, rfl⟩ := mem_moves.mp member
  obtain ⟨listed, same⟩ := mem_priced.mp tried
  exact same ▸ nonneg p.action listed

/-- Whatever is required stems from the wanted conditions or from a precondition. -/
theorem bounded [Zero α] [Add α] :
    (problem (priced price actions) wanted facts heuristic).Bounded := by
  refine Problem.bounded_of_inside (wanted.entries ++
    (priced price actions).flatMap fun p => p.action.preconditions.entries) ?_ ?_ ?_
  · exact List.subset_append_left _ _
  · intro key inside move member
    obtain ⟨p, tried, -, before, regressed, rfl⟩ := mem_moves.mp member
    obtain ⟨-, -, rfl⟩ := Action.regress?_eq_some_iff.mp regressed
    apply Conditions.entries_apply_subset (Conditions.entries_unsatisfiedBy_subset inside)
    exact fun e asked => List.mem_append_right _ (List.mem_flatMap.mpr ⟨p, tried, asked⟩)
  · rw [List.length_append]
    exact Nat.le_refl _

/-- What regression search adds to a search. -/
theorem lawful : regression.Lawful := ⟨rfl, fun _ => ⟨_, rfl⟩, nonneg, bounded⟩

end

variable [Zero α] [Add α] [LE α] [DecidableLE α] {budget : Option Nat} {price : Action → α}
  {actions found : List Action} {wanted facts : Conditions} {cost : α}

section

variable [HAdd α ε ε] [Priority ε] [LawfulPriority ε] {heuristic : Heuristic ε}

/-- Whatever is found is a complete chain of listed actions, at its cost, and empty only where
the goal holds. -/
theorem find?_sound
    (answer : regression.find? heuristic budget price actions wanted facts = some (found, cost)) :
    found ⊆ actions ∧ facts.CompleteChain wanted found ∧
      cost = costBackward price found ∧ (found = [] ↔ facts.satisfies wanted = true) := by
  rcases Direction.find?_cases answer with ⟨holds, rfl, rfl⟩ | ⟨fails, steps, rfl, ending⟩
  · exact ⟨List.nil_subset _, ⟨wanted, rfl, holds⟩, rfl, ⟨fun _ => holds, fun _ => rfl⟩⟩
  · obtain ⟨required, satisfied, walk⟩ := Problem.run_found ending
    obtain ⟨listed, chain, sameCost⟩ := walk_iff.mp walk
    refine ⟨listed, ⟨required, chain, satisfied⟩, sameCost, fun empty => ?_, fun holds => ?_⟩
    · obtain rfl : steps = [] := empty
      obtain rfl := Option.some.inj chain
      exact satisfied
    · exact Bool.noConfusion (holds.symm.trans fails)

/-- Whatever is found lies on a trail from the wanted conditions. -/
theorem find?_trail [LawfulCost α] (nonnegPrices : ∀ a ∈ actions, 0 ≤ price a)
    (answer : regression.find? heuristic budget price actions wanted facts = some (found, cost)) :
    ∃ required earlier,
      (problem (priced price actions) wanted facts heuristic).Trail required earlier found
        cost := by
  rcases Direction.find?_cases answer with ⟨-, rfl, rfl⟩ | ⟨-, steps, rfl, ending⟩
  · exact ⟨wanted, [], .start⟩
  · obtain ⟨required, earlier, -, trail⟩ :=
      Problem.run_found_trail (nonneg nonnegPrices) ending
    exact ⟨required, earlier, trail⟩

/-- If no listed action can come last, nothing is found unless the goal holds. -/
theorem find?_eq_none (fails : facts.satisfies wanted = false)
    (stuck : ∀ a ∈ actions, a.achievesAny (wanted.unsatisfiedBy facts) = true →
      a.regress? wanted = none) :
    regression.find? heuristic budget price actions wanted facts = none := by
  rw [Option.eq_none_iff_forall_ne_some]
  intro found answer
  -- What is found would be an empty chain, which the start does not satisfy.
  obtain ⟨listed, ⟨first, chain, satisfied⟩, -⟩ := find?_sound answer
  rw [Conditions.eq_nil_of_residual? stuck listed chain] at chain
  obtain rfl := Option.some.inj chain
  exact Bool.noConfusion (fails.symm.trans satisfied)

end

section

variable [Priority α] [LawfulPriority α] [LawfulCost α] [CheapestFirst α] {heuristic : Heuristic α}

/-- With consistent estimates and without a budget, a cheapest complete chain is found. -/
theorem cheapest_of_consistent (nonnegPrices : ∀ a ∈ actions, 0 ≤ price a)
    (consistent : (problem (priced price actions) wanted facts heuristic).Consistent) :
    Cheapest (fun chain => chain ⊆ actions ∧ facts.CompleteChain wanted chain)
      (costBackward price) (regression.find? heuristic none price actions wanted facts) := by
  rw [Direction.find?]
  split
  case isTrue holds =>
    refine .of_nil ⟨List.nil_subset _, wanted, rfl, holds⟩ rfl ?_
    intro chain isChain
    exact costBackward_nonneg fun a member => nonnegPrices a (isChain.1 member)
  case isFalse =>
    refine .inOrder (fun _ => rfl)
      (.of_run consistent (nonneg nonnegPrices) bounded fun steps c => ?_)
    constructor
    · intro walked
      obtain ⟨required, satisfied, walk⟩ := walked
      obtain ⟨listed, chain, sameCost⟩ := walk_iff.mp walk
      exact ⟨⟨listed, required, chain, satisfied⟩, sameCost⟩
    · intro isChain
      obtain ⟨⟨listed, required, chain, satisfied⟩, sameCost⟩ := isChain
      exact ⟨required, satisfied, walk_iff.mpr ⟨listed, chain, sameCost⟩⟩

/-- Without estimates and without a budget, a cheapest complete chain is found. -/
theorem cheapest (nonnegPrices : ∀ a ∈ actions, 0 ≤ price a) :
    Cheapest (fun chain => chain ⊆ actions ∧ facts.CompleteChain wanted chain)
      (costBackward price) (regression.find? (fun _ => 0) none price actions wanted facts) :=
  cheapest_of_consistent nonnegPrices
    (Problem.Blind.consistent (fun _ => rfl) (nonneg nonnegPrices))

/-- Without a heuristic and without a budget, a plan is found if there is a complete chain. -/
theorem exists_plan {goal : Goal} {state : WorldState} {chain : List Action}
    (listed : chain ⊆ actions) (complete : state.facts.CompleteChain goal.preconditions chain) :
    ∃ plan, (regression.search .zero none actions goal state).value = some plan := by
  obtain ⟨found, c, answer, -⟩ :=
    (cheapest fun a _ => a.costIn_nonneg state).exists_answer ⟨listed, complete⟩
  exact ⟨_, (Direction.value_search ..).trans (congrArg (Option.map _) answer)⟩

end

omit [DecidableLE α] in
/-- Where no effect conflicts with the facts of the start, a cheapest complete chain is a cheapest
run that reaches the goal. -/
theorem cheapest_run [LawfulCost α] {state : WorldState} {answer : Option (List Action × α)}
    (cheapestChain : Cheapest
      (fun chain => chain ⊆ actions ∧ state.facts.CompleteChain wanted chain)
      (costBackward price) answer)
    (nonnegPrices : ∀ a ∈ actions, 0 ≤ price a)
    (keeps : ∀ a ∈ actions, a.effects.conflictsWith state.facts = false) :
    Cheapest (fun run => run ⊆ actions ∧ state.Reaches wanted run) (costBackward price) answer := by
  -- Every run can be trimmed, and what is trimmed costs no more.
  have trimmed {run : List Action} (listed : run ⊆ actions) (reaches : state.Reaches wanted run) :
      ∃ chain, (chain ⊆ actions ∧ state.facts.CompleteChain wanted chain) ∧
        costBackward price chain ≤ costBackward price run := by
    obtain ⟨chain, sublist, complete⟩ := WorldState.exists_sublist_completeChain reaches
      fun a member => keeps a (listed member)
    exact ⟨chain, ⟨List.Subset.trans sublist.subset listed, complete⟩,
      costBackward_le_of_sublist sublist fun a member => nonnegPrices a (listed member)⟩
  refine ⟨?_, fun found => ?_, fun found other ⟨listed, reaches⟩ => ?_⟩
  · rw [cheapestChain.none_iff]
    constructor
    · intro never run isRun
      obtain ⟨listed, reaches⟩ := isRun
      obtain ⟨chain, complete, -⟩ := trimmed listed reaches
      exact never chain complete
    · intro never chain isChain
      obtain ⟨listed, _, chained, satisfied⟩ := isChain
      exact never chain ⟨listed, WorldState.reaches_of_residual? chained satisfied⟩
  · obtain ⟨⟨listed, _, chained, satisfied⟩, sameCost⟩ := cheapestChain.sound found
    exact ⟨⟨listed, WorldState.reaches_of_residual? chained satisfied⟩, sameCost⟩
  · obtain ⟨chain, complete, le⟩ := trimmed listed reaches
    obtain ⟨⟨listedFound, -⟩, rfl⟩ := cheapestChain.sound found
    exact LawfulCost.le_trans
      (costBackward_nonneg fun a member => nonnegPrices a (listedFound member))
      (cheapestChain.least found chain complete) le

/-- Without a heuristic and without a budget, regression search answers with a complete chain of
listed actions of least cost, and has no answer exactly if there is none. It does so both for the
prices of the actions, added from the last to the first, and for any prices that are added
exactly. Where no effect conflicts with the facts of the start, its answer is also a cheapest run
that reaches the goal, and it has no answer exactly if there is no such run. -/
theorem search_cheapest_chain {β : Type} [AddCommMonoid β] [LinearOrder β] [IsOrderedAddMonoid β]
    (actions : List Action) (goal : Goal) (state : WorldState) (price : Action → β)
    (nonnegPrices : ∀ a ∈ actions, 0 ≤ price a) :
    (Cheapest (fun chain => chain ⊆ actions ∧ state.facts.CompleteChain goal.preconditions chain)
        (costBackward (·.costIn state))
        ((regression.search .zero none actions goal state).value.map planAnswer) ∧
      Cheapest (fun chain => chain ⊆ actions ∧ state.facts.CompleteChain goal.preconditions chain)
        (fun chain => (chain.map price).sum)
        (regression.find? (fun _ => 0) none price actions goal.preconditions state.facts)) ∧
    ((∀ a ∈ actions, a.effects.conflictsWith state.facts = false) →
      Cheapest (fun run => run ⊆ actions ∧ state.Reaches goal.preconditions run)
        (costBackward (·.costIn state))
        ((regression.search .zero none actions goal state).value.map planAnswer) ∧
      Cheapest (fun run => run ⊆ actions ∧ state.Reaches goal.preconditions run)
        (fun run => (run.map price).sum)
        (regression.find? (fun _ => 0) none price actions goal.preconditions state.facts)) := by
  have nonnegCosts (a : Action) (_ : a ∈ actions) := a.costIn_nonneg state
  have sum : (fun chain : List Action => (chain.map price).sum) = costBackward price :=
    funext fun chain => (costBackward_eq_sum chain).symm
  rw [Direction.answer_search, sum]
  refine ⟨⟨cheapest nonnegCosts, cheapest nonnegPrices⟩, fun keeps => ⟨?_, ?_⟩⟩
  · exact cheapest_run (cheapest nonnegCosts) nonnegCosts keeps
  · exact cheapest_run (cheapest nonnegPrices) nonnegPrices keeps

open LockedDoor

/-- At a price of one for each action, two actions open the locked door, and no plan costs more. -/
theorem search_cheapest_chain_lockedDoor :
    ∃ found c, regression.find? (fun _ => 0) none (fun _ => (1 : ℕ)) [openDoor, fetchKey]
        enter.preconditions outside.facts = some (found, c) ∧
      outside.Reaches enter.preconditions found ∧ c ≤ 2 := by
  obtain ⟨-, cheapestRuns⟩ := search_cheapest_chain [openDoor, fetchKey] enter outside
    (fun _ => (1 : ℕ)) fun _ _ => Nat.zero_le 1
  obtain ⟨-, atUnitPrice⟩ := cheapestRuns (by decide +kernel)
  obtain ⟨found, c, answer, le⟩ := atUnitPrice.exists_answer ⟨listed_enter, reaches_enter⟩
  exact ⟨found, c, answer, (atUnitPrice.sound answer).1.2, le⟩

end ActionPlanning.Search.Regression
