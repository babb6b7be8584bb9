import ActionPlanning.Proofs.Planning.Forward
import ActionPlanning.Proofs.Planning.Regression
import ActionPlanning.Proofs.Ranking.Goals

/-!
# The order of a catalog

Searches try the actions in the order of their names. Where the names tell all actions apart, that
is one order, in whatever order a catalog lists the actions. So what a search finds is determined by
which actions there are, and the rankings made of such plans are too. Only the journal shows the
order of the catalog, in which the actions are priced.

## Main results

* `priced_eq_of_perm`: the order in which actions are tried.
* `Direction.value_search_of_perm`: what a search in either direction finds.
* `catalog_order_irrelevant`: what both searches find, and how a planner ranks it.
-/

namespace ActionPlanning

namespace Search

variable {α : Type} {actions other : List Action}

/-- Actions of different names are tried in one order, whatever the order of the catalog. -/
theorem priced_eq_of_perm (price : Action → α) (perm : actions.Perm other)
    (distinct : (actions.map Action.name).Nodup) : priced price actions = priced price other := by
  have sameMembers : (priced price actions).Perm (priced price other) :=
    (List.mergeSort_perm _ _).trans ((perm.map _).trans (List.mergeSort_perm _ _).symm)
  refine List.Perm.eq_of_pairwise ?_ (pairwise_priced price actions)
    (pairwise_priced price other) sameMembers
  -- Two actions that may each come first have one name, so they are one action, at one price.
  intro p q tried triedToo before behind
  obtain ⟨listed, cost⟩ := mem_priced.mp tried
  obtain ⟨listedToo, costToo⟩ := mem_priced.mp triedToo
  have sameAction : p.action = q.action := List.inj_on_of_nodup_map distinct listed
    (perm.mem_iff.mpr listedToo) (String.le_antisymm before behind)
  have sameCost : p.cost = q.cost := by rw [cost, costToo, sameAction]
  cases p
  cases q
  exact congrArg₂ Priced.mk sameAction sameCost

/-- What a search finds does not depend on the order of the catalog. -/
theorem Direction.value_search_of_perm {ε : Type} [HAdd Amount ε ε] [Priority ε]
    (direction : Direction) (heuristic : Heuristic ε) (budget : Option Nat)
    (perm : actions.Perm other) (distinct : (actions.map Action.name).Nodup) (goal : Goal)
    (state : WorldState) :
    (direction.search heuristic budget actions goal state).value
      = (direction.search heuristic budget other goal state).value := by
  rw [value_search, value_search, find?, find?, priced_eq_of_perm _ perm distinct]

end Search

namespace Planner

variable {γ : Type} [TokenLibrary γ] {p : Planner}

/-- A planner that has the same plans for the goals of two systems with the same goals ranks them
alike. -/
theorem value_plansToGoals_congr (forGoals : p.utility = false) (first second : PlanningSystem)
    (goals : first.goals = second.goals)
    (plans : ∀ goal state, (p.search first.actions goal state).value
      = (p.search second.actions goal state).value) (determiner : Determiner) (s : Session γ) :
    (p.plansToGoals determiner s first).value = (p.plansToGoals determiner s second).value := by
  have ranked (state : WorldState) : (p.rank first state).value = (p.rank second state).value := by
    simp only [rank_of_goals forGoals, Ranking.value_goals, goals, plans]
  unfold plansToGoals
  simp only [value_onSnapshot, Recorded.value_bind, Recorded.value_pure, ranked]

end Planner

/-- The order of a catalog whose actions have different names does not matter: both searches find
the same plan at the same cost, or none, with any heuristic and any budget, and a planner that plans
for goals with one of them ranks the same plans. -/
theorem catalog_order_irrelevant {ε γ : Type} [HAdd Amount ε ε] [Search.Priority ε]
    [TokenLibrary γ] {actions other : List Action} (perm : actions.Perm other)
    (distinct : (actions.map Action.name).Nodup) (heuristic : Search.Heuristic ε)
    (budget : Option Nat) :
    (∀ goal state, (Search.regression.search heuristic budget actions goal state).value
        = (Search.regression.search heuristic budget other goal state).value) ∧
      (∀ goal state, (Search.forward.search heuristic budget actions goal state).value
        = (Search.forward.search heuristic budget other goal state).value) ∧
      ∀ p : Planner, p.utility = false →
        (p.algorithm = Search.Regression.algorithm heuristic budget ∨
          p.algorithm = Search.Forward.algorithm heuristic budget) →
        ∀ (goals : List Goal) (known : KeySet) (determiner : Determiner) (s : Session γ),
          (p.plansToGoals determiner s ⟨actions, goals, known⟩).value
            = (p.plansToGoals determiner s ⟨other, goals, known⟩).value := by
  have regression := Search.regression.value_search_of_perm heuristic budget perm distinct
  have forward := Search.forward.value_search_of_perm heuristic budget perm distinct
  refine ⟨regression, forward, fun p forGoals searches goals known determiner s => ?_⟩
  have found (goal : Goal) (state : WorldState) : (p.algorithm.search actions goal state).value
      = (p.algorithm.search other goal state).value := by
    rcases searches with backwards | forwards
    · rw [backwards]
      exact regression goal state
    · rw [forwards]
      exact forward goal state
  have samePlans (goal : Goal) (state : WorldState) :
      (p.search actions goal state).value = (p.search other goal state).value := by
    unfold Planner.search
    rw [Recorded.value_bind, Recorded.value_bind, found]
  exact Planner.value_plansToGoals_congr forGoals ⟨actions, goals, known⟩ ⟨other, goals, known⟩ rfl
    samePlans determiner s

open Search LockedDoor in
/-- It does not matter whether fetching the key is listed before opening the door or after it: both
searches find one way in, and a planner with all its defaults ranks one. -/
theorem catalog_order_irrelevant_lockedDoor :
    (∃ plan, (regression.search .zero none [openDoor, fetchKey] enter outside).value = some plan ∧
      (regression.search .zero none [fetchKey, openDoor] enter outside).value = some plan) ∧
    (∃ plan, (forward.search .zero none [openDoor, fetchKey] enter outside).value = some plan ∧
      (forward.search .zero none [fetchKey, openDoor] enter outside).value = some plan) ∧
    ∃ plan,
      (({} : Planner).plansToGoals (.static outside) ({} : Session)
          ⟨[openDoor, fetchKey], [enter], .ofList ["doorOpen", "hasKey"]⟩).value.answer
        = .ok [plan] ∧
      (({} : Planner).plansToGoals (.static outside) ({} : Session)
          ⟨[fetchKey, openDoor], [enter], .ofList ["doorOpen", "hasKey"]⟩).value.answer
        = .ok [plan] := by
  have distinct : ([openDoor, fetchKey].map Action.name).Nodup := by decide
  obtain ⟨backwards, forwards, planner⟩ :=
    catalog_order_irrelevant (γ := Cancellations) (.swap fetchKey openDoor []) distinct .zero none
  obtain ⟨backward, foundBackward⟩ := Regression.exists_plan listed_enter completeChain_enter
  obtain ⟨onward, foundOnward⟩ := Forward.exists_plan listed_enter reaches_enter
  refine ⟨⟨backward, foundBackward, (backwards enter outside).symm.trans foundBackward⟩,
    ⟨onward, foundOnward, (forwards enter outside).symm.trans foundOnward⟩, ?_⟩
  let system : PlanningSystem := ⟨[openDoor, fetchKey], [enter], .ofList ["doorOpen", "hasKey"]⟩
  have outcome : ({} : Planner).outcome system outside enter = some ⟨backward, .valueMinusCost⟩ :=
    Option.map_eq_some_iff.mpr ⟨backward, foundBackward, rfl⟩
  have given : (Session.current (.static outside) ({} : Session)).value.1 = .ok ⟨0, outside⟩ := rfl
  have fits : ({} : Planner).RanksGoals system outside (({} : Planner).outcome system outside)
      (.static outside) ({} : Session) := Planner.ranksGoals rfl given
  obtain ⟨plans, ranked, ranks⟩ := fits.ranked
  have declared : system.goals.filterMap (({} : Planner).outcome system outside)
      = [⟨backward, .valueMinusCost⟩] := by
    rw [List.filterMap_cons_some outcome, List.filterMap_nil]
  rw [declared] at ranks
  rw [List.perm_singleton.mp ranks.perm] at ranked
  have same := planner {} rfl (.inl rfl) [enter] system.known (.static outside) {}
  exact ⟨_, ranked, (congrArg Reaction.answer same).symm.trans ranked⟩

end ActionPlanning
