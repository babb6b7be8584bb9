import ActionPlanning.Proofs.Amount.Unsigned
import ActionPlanning.Proofs.Planning.Forward
import ActionPlanning.Proofs.Planning.Regression
import ActionPlanning.Proofs.Planning.Relevance
import ActionPlanning.Proofs.Search.Agreement
import ActionPlanning.Proofs.Search.Detour
import ActionPlanning.Proofs.Search.Termination

/-!
# Planning with the relevant actions

Pruning leaves out the actions that have no effect among some conditions that are closed for every
goal. Regression search never requires anything else, so it would never have tried them: with and
without them it goes through the same turns, and answers alike whatever is estimated.

Forward search does try them, and reaches states that it would not reach otherwise. But such a
state is no better than the one before: among the conditions that count it has no more facts. So
leaving the action out of a run leaves a run to the goal that costs no more, and since of two
nodes of equal cost the earlier one is expanded first, no run with such an action is ever found.

## Main results

* `Regression.value_search_prune`: regression search answers alike with the pruned actions.
* `Forward.cost_search_prune`: so does forward search, up to plans of equal cost.
-/

namespace ActionPlanning

/-! ## A locked door with a view -/

namespace LockedDoor

/-- Seeing the view, which is free and opens no door. -/
def seeView : Action where
  name := "seeView"
  effects := .ofList [⟨"viewSeen", .flag true⟩]
  cost := .fixed 0

/-- The locked door, and a view to be seen in front of it. -/
def porch : PlanningSystem where
  actions := [seeView, openDoor, fetchKey]
  goals := [enter]
  known := .ofList ["doorOpen", "hasKey", "viewSeen"]

theorem fault?_porch : porch.fault? = none := rfl

theorem actions_prune_porch : porch.prune.value.actions = [openDoor, fetchKey] := rfl

theorem listed_porch : [fetchKey, openDoor] ⊆ porch.actions :=
  List.subset_cons_of_subset seeView (List.Perm.swap _ _ []).subset

end LockedDoor

namespace Search

open LockedDoor Relevance

variable {α ε : Type} {price : Action → α} {actions : List Action} {tracked : List Condition}
  {wanted facts required upper lower : Conditions} {heuristic : Heuristic ε}

/-! ## Regression search -/

namespace Regression

/-- An action that brings about what is required has an effect among conditions that contain it. -/
theorem contributes_of_achievesAny {a : Action} (inside : required.entries ⊆ tracked)
    (achieves : a.achievesAny (required.unsatisfiedBy facts) = true) :
    contributes tracked a = true := by
  obtain ⟨key, value, sets, wanted⟩ := Conditions.overlaps_iff.mp achieves
  have asked := (Conditions.get?_unsatisfiedBy_eq_some.mp wanted).1
  exact contributes_iff.mpr ⟨⟨key, value⟩, Conditions.get?_eq_some_iff.mp sets,
    inside (Conditions.get?_eq_some_iff.mp asked)⟩

/-- Nothing is required outside conditions that are closed for the wanted ones. -/
theorem entries_subset_of_walk [Zero α] [Add α] {steps : List Action} {cost : α}
    (closed : Closed actions wanted.entries tracked)
    (walk : (problem (priced price actions) wanted facts heuristic).Walk wanted 0 required steps
      cost) : required.entries ⊆ tracked := by
  induction walk with
  | stay => exact closed.wanted
  | step _ member inside =>
    obtain ⟨p, tried, achieves, before, regressed, rfl⟩ := mem_moves.mp member
    obtain ⟨-, -, rfl⟩ := Action.regress?_eq_some_iff.mp regressed
    apply Conditions.entries_apply_subset (Conditions.entries_unsatisfiedBy_subset inside)
    exact closed.needs p.action (mem_priced.mp tried).1 (contributes_of_achievesAny inside achieves)

/-- Where all that is required is tracked, actions without a tracked effect are not tried. -/
theorem moves_filter (inside : required.entries ⊆ tracked) :
    moves (priced price (actions.filter (contributes tracked))) facts required
      = moves (priced price actions) facts required := by
  rw [priced_filter, moves, moves, List.filterMap_filter]
  refine List.filterMap_congr fun p _ => ?_
  by_cases contributed : contributes tracked p.action = true
  · rw [if_pos contributed]
  · -- What is left out would not have been tried.
    have idle : ¬ p.action.achievesAny (required.unsatisfiedBy facts) = true :=
      mt (contributes_of_achievesAny inside) contributed
    rw [if_neg contributed, if_neg idle]

/-- Actions without a tracked effect do not change the answer. -/
theorem find?_filter [Zero α] [Add α] [LE α] [DecidableLE α] [LawfulCost α] [CountedCost α]
    [HAdd α ε ε] [Priority ε] [LawfulPriority ε] (closed : Closed actions wanted.entries tracked)
    (nonnegPrices : ∀ a ∈ actions, 0 ≤ price a) (budget : Option Nat) :
    regression.find? heuristic budget price (actions.filter (contributes tracked)) wanted facts
      = regression.find? heuristic budget price actions wanted facts := by
  have agrees : (problem (priced price actions) wanted facts heuristic).Agrees
      (problem (priced price (actions.filter (contributes tracked))) wanted facts heuristic) :=
    ⟨rfl, rfl, rfl, fun walk => moves_filter (entries_subset_of_walk closed walk)⟩
  have nonnegKept (a : Action) (member : a ∈ actions.filter (contributes tracked)) : 0 ≤ price a :=
    nonnegPrices a (List.mem_of_mem_filter member)
  have sameRun := agrees.run_eq (Problem.run_ne_unbounded (nonneg nonnegPrices) bounded budget)
    (Problem.run_ne_unbounded (nonneg nonnegKept) bounded budget)
  simp only [Direction.find?, regression, sameRun]

/-- For every goal of a system, in every state, with every heuristic and budget, regression search
answers with the same plan, or with none, whether the system was pruned or not. -/
theorem value_search_prune [HAdd Amount ε ε] [Priority ε] [LawfulPriority ε] (s : PlanningSystem)
    {goal : Goal} (member : goal ∈ s.goals) (state : WorldState) (heuristic : Heuristic ε)
    (budget : Option Nat) :
    (regression.search heuristic budget s.prune.value.actions goal state).value
      = (regression.search heuristic budget s.actions goal state).value := by
  obtain ⟨tracked, closed, kept⟩ := s.exists_prune_eq
  rw [Direction.value_search, Direction.value_search, kept,
    find?_filter (closed goal member) fun a _ => a.costIn_nonneg state]

/-- A plan that opens the door is found on the porch, and found again without the view. -/
theorem value_search_prune_porch :
    porch.fault? = none ∧ porch.prune.value.actions = [openDoor, fetchKey] ∧
      ∃ plan, (regression.search .zero none porch.actions enter outside).value = some plan ∧
        (regression.search .zero none porch.prune.value.actions enter outside).value
          = some plan := by
  obtain ⟨chain, c, found, -⟩ :=
    (cheapest fun a _ => a.costIn_nonneg outside).exists_answer ⟨listed_porch, completeChain_enter⟩
  have answer : (regression.search .zero none porch.actions enter outside).value
      = some ⟨enter, chain, c⟩ :=
    (Direction.value_search ..).trans (congrArg (Option.map _) found)
  exact ⟨fault?_porch, actions_prune_porch, _, answer,
    (value_search_prune porch List.mem_cons_self outside .zero none).trans answer⟩

end Regression

/-! ## Forward search -/

namespace Forward

/-- Facts are above others if they have all the tracked conditions that the others have. -/
def Above (tracked : List Condition) (upper lower : Conditions) : Prop :=
  ∀ key value, ⟨key, value⟩ ∈ tracked → lower.get? key = some value → upper.get? key = some value

/-- Facts stay above others when an action without a tracked effect runs there. -/
theorem Above.skip {a : Action} (above : Above tracked upper lower)
    (idle : ¬ contributes tracked a = true) : Above tracked upper (lower.apply a.effects) := by
  intro key value isTracked holds
  rw [Conditions.get?_apply] at holds
  rcases Option.or_eq_some_iff.mp holds with set | ⟨-, kept⟩
  · exact absurd (contributes_iff.mpr ⟨_, Conditions.get?_eq_some_iff.mp set, isTracked⟩) idle
  · exact above key value isTracked kept

/-- Facts stay above others when the same action runs in both. -/
theorem Above.apply (above : Above tracked upper lower) (effects : Conditions) :
    Above tracked (upper.apply effects) (lower.apply effects) := by
  intro key value isTracked holds
  rw [Conditions.get?_apply] at holds ⊢
  rcases Option.or_eq_some_iff.mp holds with set | ⟨unset, kept⟩
  · rw [set, Option.some_or]
  · rw [unset, Option.none_or]
    exact above key value isTracked kept

/-- What is satisfied by facts is satisfied by facts above them. -/
theorem Above.satisfies (above : Above tracked upper lower) (inside : wanted.entries ⊆ tracked)
    (satisfied : lower.satisfies wanted = true) : upper.satisfies wanted = true := by
  rw [Conditions.satisfies_iff] at satisfied ⊢
  intro key value asked
  exact above key value (inside (Conditions.get?_eq_some_iff.mp asked)) (satisfied key value asked)

/-- Forward search does just as well without the actions that have no tracked effect. -/
theorem shortcuts (closed : Closed actions wanted.entries tracked) :
    (problem (priced price actions) wanted facts heuristic).Shortcuts
      (contributes tracked · = true) (Above tracked) where
  refl _ _ _ _ := id
  skip above member idle := by
    obtain ⟨p, -, -, rfl⟩ := mem_moves.mp member
    exact above.skip idle
  follow above member contributed := by
    obtain ⟨p, tried, performable, rfl⟩ := mem_moves.mp member
    have needs := closed.needs p.action (mem_priced.mp tried).1 contributed
    exact ⟨_, mem_moves.mpr ⟨p, tried, above.satisfies needs performable, rfl⟩, rfl,
      above.apply p.action.effects⟩
  goal above satisfied := above.satisfies closed.wanted satisfied

variable [Zero α] [Add α] [LE α] [DecidableLE α] [Priority α] [LawfulPriority α] [LawfulCost α]
  [CheapestFirst α]

/-- Without estimates every action that is found has a tracked effect. -/
theorem contributes_of_find? [FaithfulQueue α] (closed : Closed actions wanted.entries tracked)
    (nonnegPrices : ∀ a ∈ actions, 0 ≤ price a) {budget : Option Nat} {found : List Action}
    {cost : α}
    (answer : forward.find? (fun _ => 0) budget price actions wanted facts = some (found, cost))
    {a : Action} (member : a ∈ found) : contributes tracked a = true := by
  rcases Direction.find?_cases answer with ⟨-, rfl, -⟩ | ⟨-, steps, rfl, ending⟩
  · exact absurd member List.not_mem_nil
  · exact Problem.run_found_needed (shortcuts closed) (fun _ => rfl) (nonneg nonnegPrices) ending
      (List.mem_reverse.mp member)

/-- Without estimates and without a budget, actions without a tracked effect do not change the
least cost. -/
theorem map_cost_find?_filter [FaithfulQueue α] {state : WorldState}
    (closed : Closed actions wanted.entries tracked) (nonnegPrices : ∀ a ∈ actions, 0 ≤ price a)
    (antisymm : ∀ first second, costForward price first ≤ costForward price second →
      costForward price second ≤ costForward price first →
        costForward price first = costForward price second) :
    (forward.find? (fun _ => 0) none price (actions.filter (contributes tracked)) wanted
        state.facts).map Prod.snd
      = (forward.find? (fun _ => 0) none price actions wanted state.facts).map Prod.snd := by
  have least : Cheapest (fun run => run ⊆ actions ∧ state.Reaches wanted run)
      (costForward price) (forward.find? (fun _ => 0) none price actions wanted state.facts) :=
    cheapest nonnegPrices
  -- Every run of kept actions is a run of all, and the one that is found is a run of kept actions.
  refine least.map_cost_eq
    (cheapest fun a member => nonnegPrices a (List.mem_of_mem_filter member)) ?_ ?_ antisymm
  · intro run isRun
    obtain ⟨listed, reaches⟩ := isRun
    exact ⟨fun a member => List.mem_of_mem_filter (listed member), reaches⟩
  · intro found cost answer
    obtain ⟨⟨listed, reaches⟩, -⟩ := least.sound answer
    exact ⟨fun a member => List.mem_filter.mpr
      ⟨listed member, contributes_of_find? closed nonnegPrices answer member⟩, reaches⟩

/-- The prices of actions add up to an amount without a sign. -/
theorem unsigned_costForward (state : WorldState) (run : List Action) :
    (costForward (·.costIn state) run).Unsigned :=
  List.foldlRecOn (motive := Amount.Unsigned) run _ Amount.unsigned_zero fun _ unsigned a _ =>
    Amount.unsigned_add unsigned.hasNumber.nonneg (a.costIn_nonneg state) (.inl unsigned)

/-- For every goal of a system and in every state, forward search without estimates and without a
budget finds a plan with the pruned actions exactly if it finds one with all of them. The two plans
cost the same, and pruning keeps every action of the latter. -/
theorem cost_search_prune (s : PlanningSystem) {goal : Goal} (member : goal ∈ s.goals)
    (state : WorldState) :
    let full := (forward.search .zero none s.actions goal state).value
    let pruned := (forward.search .zero none s.prune.value.actions goal state).value
    pruned.isSome = full.isSome ∧ pruned.map Plan.cost = full.map Plan.cost ∧
      ∀ plan, full = some plan → plan.actions ⊆ s.prune.value.actions := by
  intro full pruned
  obtain ⟨tracked, closed, kept⟩ := s.exists_prune_eq
  have nonneg (a : Action) (_ : a ∈ s.actions) := a.costIn_nonneg state
  have sameCost : pruned.map Plan.cost = full.map Plan.cost := by
    simp only [full, pruned, Direction.value_search, kept, Option.map_map]
    exact map_cost_find?_filter (closed goal member) nonneg fun first second =>
      (unsigned_costForward state first).eq_of_le (unsigned_costForward state second)
  refine ⟨?_, sameCost, fun plan isPlan a inPlan => ?_⟩
  · simpa only [Option.isSome_map] using congrArg Option.isSome sameCost
  · obtain ⟨⟨found, cost⟩, answer, rfl⟩ := Option.map_eq_some_iff.mp
      ((Direction.value_search ..).symm.trans isPlan)
    rw [kept]
    exact List.mem_filter.mpr ⟨(find?_sound answer).1 inPlan,
      contributes_of_find? (closed goal member) nonneg answer inPlan⟩

/-- On the porch the door is opened without a look at the view, although that is free, and at the
same cost as when there is none. -/
theorem cost_search_prune_porch :
    ∃ plan, (forward.search .zero none porch.actions enter outside).value = some plan ∧
      plan.actions ⊆ [openDoor, fetchKey] ∧
      (forward.search .zero none porch.prune.value.actions enter outside).value.map Plan.cost
        = some plan.cost := by
  obtain ⟨run, c, found, -⟩ :=
    (cheapest fun a _ => a.costIn_nonneg outside).exists_answer ⟨listed_porch, reaches_enter⟩
  have answer : (forward.search .zero none porch.actions enter outside).value
      = some ⟨enter, run, c⟩ :=
    (Direction.value_search ..).trans (congrArg (Option.map _) found)
  obtain ⟨-, sameCost, kept⟩ := cost_search_prune porch List.mem_cons_self outside
  exact ⟨_, answer, kept _ answer, sameCost.trans (congrArg (Option.map Plan.cost) answer)⟩

end Forward

end Search

end ActionPlanning
