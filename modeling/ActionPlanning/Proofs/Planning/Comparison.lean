import ActionPlanning.Proofs.Planning.Forward
import ActionPlanning.Proofs.Planning.Regression
import ActionPlanning.System

/-!
# When regression finds what there is to find

Forward search compares all runs, regression search only those of which every action serves a
purpose: it makes something hold that the start does not provide. Restoring a fact of the start
that an earlier action undid serves no purpose in this sense. So regression finds a cheapest way
to the goal exactly if for every run there is a purposeful one that costs no more; otherwise it
answers with a plan that is too expensive, or with none although the goal can be reached.

## Main definitions

* `FindsCheapest`: an answer that no run undercuts.
* `PurposeSuffices`: for every run there is a purposeful one that costs no more.

## Main results

* `finds_cheapest_iff`: the first holds of regression exactly if the second does.
* `misses_restored`: a well-formed system for which neither does.
-/

namespace ActionPlanning.Search

variable {α : Type} {cost : List Action → α} {actions : List Action} {wanted : Conditions}
  {state : WorldState} {answer : Option (List Action × α)}

/-- There is an answer whenever a run of listed actions reaches the goal, and it costs no more. -/
def FindsCheapest [LE α] (cost : List Action → α) (actions : List Action) (wanted : Conditions)
    (state : WorldState) (answer : Option (List Action × α)) : Prop :=
  ∀ run ⊆ actions, state.Reaches wanted run → ∃ found c, answer = some (found, c) ∧ c ≤ cost run

/-- For every run of listed actions that reaches the goal there is one that costs no more and of
which every action serves a purpose. -/
def PurposeSuffices [LE α] (cost : List Action → α) (actions : List Action) (wanted : Conditions)
    (state : WorldState) : Prop :=
  ∀ run ⊆ actions, state.Reaches wanted run → ∃ better ⊆ actions,
    state.Reaches wanted better ∧ state.facts.Purposeful wanted better ∧ cost better ≤ cost run

/-- A cheapest complete chain is as cheap as any run exactly if purpose suffices. -/
theorem findsCheapest_iff [Zero α] [Add α] [LE α] [LawfulCost α]
    (cheapest : Cheapest (fun chain => chain ⊆ actions ∧ state.facts.CompleteChain wanted chain)
      cost answer)
    (nonneg : ∀ chain ⊆ actions, 0 ≤ cost chain) :
    FindsCheapest cost actions wanted state answer ↔
      PurposeSuffices cost actions wanted state := by
  constructor
  · intro finds run listed reaches
    obtain ⟨found, c, same, le⟩ := finds run listed reaches
    obtain ⟨⟨listedFound, complete⟩, rfl⟩ := cheapest.sound same
    obtain ⟨reachesFound, purposeful⟩ := WorldState.completeChain_iff.mp complete
    exact ⟨found, listedFound, reachesFound, purposeful, le⟩
  · intro enough run listed reaches
    obtain ⟨better, listedBetter, reachesBetter, purposeful, le⟩ := enough run listed reaches
    obtain ⟨found, c, same, atMost⟩ := cheapest.exists_answer
      ⟨listedBetter, WorldState.completeChain_iff.mpr ⟨reachesBetter, purposeful⟩⟩
    obtain ⟨⟨listedFound, -⟩, rfl⟩ := cheapest.sound same
    exact ⟨found, _, same, LawfulCost.le_trans (nonneg found listedFound) atMost le⟩

/-- An answer that is itself a run is a cheapest one exactly if it costs what a cheapest run costs,
and is missing exactly if there is none. -/
theorem findsCheapest_iff_cost_eq [PartialOrder α] {best : Option (List Action × α)}
    (cheapestRun : Cheapest (fun run => run ⊆ actions ∧ state.Reaches wanted run) cost best)
    (sound : ∀ {found c}, answer = some (found, c) →
      (found ⊆ actions ∧ state.Reaches wanted found) ∧ c = cost found) :
    FindsCheapest cost actions wanted state answer ↔ answer.map Prod.snd = best.map Prod.snd := by
  constructor
  · intro finds
    -- Each of the two answers is a run that the other does not undercut.
    match best, answer with
    | none, none => rfl
    | none, some (found, c) =>
      exact absurd (sound rfl).1 (cheapestRun.none_iff.mp rfl found)
    | some (run, c), answer =>
      obtain ⟨⟨listed, reaches⟩, rfl⟩ := cheapestRun.sound rfl
      obtain ⟨found, d, rfl, le⟩ := finds run listed reaches
      obtain ⟨isRun, rfl⟩ := sound rfl
      exact congrArg some (le.antisymm (cheapestRun.least rfl found isRun))
  · intro same run listed reaches
    obtain ⟨_, c, rfl, le⟩ := cheapestRun.exists_answer ⟨listed, reaches⟩
    obtain ⟨⟨found, d⟩, rfl, rfl⟩ := Option.map_eq_some_iff.mp same
    exact ⟨found, _, rfl, le⟩

/-- With exact prices, regression search without a heuristic and without a budget finds a way to
the goal that no run undercuts, and so agrees with forward search on whether and at what cost the
goal can be reached, exactly if for every run there is a purposeful one that costs no more. The
same goes for the prices of the actions, added from the last to the first. -/
theorem finds_cheapest_iff {β : Type} [AddCommMonoid β] [LinearOrder β] [IsOrderedAddMonoid β]
    (actions : List Action) (goal : Goal) (state : WorldState) (price : Action → β)
    (nonnegPrices : ∀ a ∈ actions, 0 ≤ price a) :
    (FindsCheapest (fun run => (run.map price).sum) actions goal.preconditions state
        (regression.find? (fun _ => 0) none price actions goal.preconditions state.facts) ↔
      PurposeSuffices (fun run => (run.map price).sum) actions goal.preconditions state) ∧
    ((regression.find? (fun _ => 0) none price actions goal.preconditions state.facts).map
          Prod.snd
        = (forward.find? (fun _ => 0) none price actions goal.preconditions state.facts).map
          Prod.snd ↔
      PurposeSuffices (fun run => (run.map price).sum) actions goal.preconditions state) ∧
    (FindsCheapest (costBackward (·.costIn state)) actions goal.preconditions state
        ((regression.search .zero none actions goal state).value.map planAnswer) ↔
      PurposeSuffices (costBackward (·.costIn state)) actions goal.preconditions state) := by
  have nonnegCosts (a : Action) (_ : a ∈ actions) := a.costIn_nonneg state
  have sum : (fun run : List Action => (run.map price).sum) = costBackward price :=
    funext fun run => (costBackward_eq_sum run).symm
  have eitherWay : costForward price = costBackward price :=
    funext fun run => (costForward_eq_sum run).trans (costBackward_eq_sum run).symm
  rw [Direction.answer_search, sum]
  have chains : Cheapest
      (fun chain => chain ⊆ actions ∧ state.facts.CompleteChain goal.preconditions chain)
      (costBackward price)
      (regression.find? (fun _ => 0) none price actions goal.preconditions state.facts) :=
    Regression.cheapest nonnegPrices
  have runs : Cheapest (fun run => run ⊆ actions ∧ state.Reaches goal.preconditions run)
      (costBackward price)
      (forward.find? (fun _ => 0) none price actions goal.preconditions state.facts) :=
    eitherWay ▸ Forward.cheapest nonnegPrices
  -- Exact sums do not depend on the direction in which the prices are added.
  have atPrice := findsCheapest_iff chains fun chain listed =>
    costBackward_nonneg fun a member => nonnegPrices a (listed member)
  refine ⟨atPrice, ?_, ?_⟩
  · rw [← atPrice]
    refine (findsCheapest_iff_cost_eq runs fun found => ?_).symm
    obtain ⟨⟨listed, complete⟩, sameCost⟩ := chains.sound found
    exact ⟨⟨listed, (WorldState.completeChain_iff.mp complete).1⟩, sameCost⟩
  · exact findsCheapest_iff (Regression.cheapest nonnegCosts) fun chain listed =>
      costBackward_nonneg fun a member => nonnegCosts a (listed member)

/-! ## A fact that has to be restored -/

namespace Maintenance

/-- Repairing, which takes switching off the power. -/
def repair : Action where
  name := "repair"
  effects := .ofList [⟨"repaired", .flag true⟩, ⟨"powered", .flag false⟩]

/-- Switching the power on. -/
def powerOn : Action := { name := "powerOn", effects := .ofList [⟨"powered", .flag true⟩] }

/-- Being repaired and under power. -/
def maintained : Goal where
  name := "maintained"
  preconditions := .ofList [⟨"powered", .flag true⟩, ⟨"repaired", .flag true⟩]

/-- Being under power. -/
def running : WorldState := ⟨.ofList [⟨"powered", .flag true⟩], default⟩

/-- The system of these actions and this goal. -/
def system : PlanningSystem where
  actions := [repair, powerOn]
  goals := [maintained]
  known := PlanningSystem.referencedKeys [repair, powerOn] [maintained]

theorem reaches_maintained : running.Reaches maintained.preconditions [repair, powerOn] := by
  decide +kernel

theorem stuck : ∀ a ∈ system.actions,
    a.achievesAny (maintained.preconditions.unsatisfiedBy running.facts) = true →
      a.regress? maintained.preconditions = none := by
  decide +kernel

end Maintenance

open Maintenance

/-- The system is well formed and repairing and then restoring the power reaches its goal, as
forward search finds; but regression search finds nothing. -/
theorem misses_restored :
    system.fault? = none ∧ maintained ∈ system.goals ∧
      [repair, powerOn] ⊆ system.actions ∧
      running.Reaches maintained.preconditions [repair, powerOn] ∧
      (regression.search .zero none system.actions maintained running).value = none ∧
      (forward.search .zero none system.actions maintained running).value ≠ none := by
  have listed : [repair, powerOn] ⊆ system.actions := List.Subset.refl _
  refine ⟨by decide +kernel, List.mem_singleton_self _, listed, reaches_maintained, ?_, ?_⟩
  -- The power holds at the start, so only repairing could come last, but that takes it away.
  · rw [Direction.value_search, Regression.find?_eq_none (by decide +kernel) stuck]
    rfl
  · rw [Direction.value_search, Ne, Option.map_eq_none_iff]
    obtain ⟨found, c, answer, -⟩ :=
      (Forward.cheapest fun a _ => a.costIn_nonneg running).exists_answer
        ⟨listed, reaches_maintained⟩
    exact fun missing => nomatch missing.symm.trans answer

/-- Restoring the power serves no purpose in the sense of regression. -/
theorem finds_cheapest_iff_maintenance :
    ¬ PurposeSuffices (fun run => (run.map fun _ => (1 : ℕ)).sum) system.actions
      maintained.preconditions running := by
  intro enough
  obtain ⟨found, c, answer, -⟩ :=
    (finds_cheapest_iff system.actions maintained running (fun _ => (1 : ℕ))
      fun _ _ => Nat.zero_le 1).1.mpr enough _ (List.Subset.refl _) reaches_maintained
  exact nomatch (Regression.find?_eq_none (by decide +kernel) stuck).symm.trans answer

end ActionPlanning.Search
