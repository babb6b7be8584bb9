import ActionPlanning.Proofs.Episode.Calls
import ActionPlanning.Proofs.Ranking.Order

/-!
# Ranking the plans to goals

Where a planner has the snapshot of the episode, its answers for the goals of a system fit together,
whatever it searches and scores with. The ranking holds the very plans it has for the single goals,
one for each goal that it has a plan for. The observer is told of every goal once, in the order of
their declaration, after all goals have been searched, perhaps at the same time. The best plan is
the one to the goal declared first among those whose plans are worth most.

Everything is compared with the answers for single goals, on the same snapshot. It does not matter
in which order the calls are made or what happens between them.

## Main definitions

* `Ranking.FirstOfBest`: an answer is the plan to the first goal among the best.
* `Ranking.judgement`: what it leaves in the journal to tell an outcome and value its plan.
* `Planner.RanksGoals`: the answers of a planner for a system fit the plans for its goals.

## Main results

* `ranks_goals`: they do on every snapshot.
-/

namespace ActionPlanning

namespace Ranking

variable {state : WorldState} {outcome : Goal → Option ScoredPlan}
  {searches : ParallelMap Goal (Option ScoredPlan)} {search : Goal → Recorded (Option ScoredPlan)}
  {observer : Observer} {goals : List Goal}

/-- The answer is the plan to the goal declared first among those whose plans are worth most in a
state, or there is none because there is no plan to any goal. -/
def FirstOfBest (state : WorldState) (outcome : Goal → Option ScoredPlan) (goals : List Goal) :
    Option ScoredPlan → Prop
  | none => ∀ goal ∈ goals, outcome goal = none
  | some best => ∃ before goal after, goals = before ++ goal :: after ∧ outcome goal = some best ∧
      (∀ other ∈ goals, ∀ plan ∈ outcome other, noWorse state best plan = true) ∧
      ∀ other ∈ before, ∀ plan ∈ outcome other, noWorse state plan best = false

/-- The first of the ranked plans to goals is the plan to the first goal among the best. -/
theorem Ranks.firstOfBest {ranked : List ScoredPlan}
    (ranks : Ranks state (goals.filterMap outcome) ranked) :
    FirstOfBest state outcome goals ranked.head? := by
  cases ranked with
  | nil => exact List.filterMap_eq_nil_iff.mp (List.perm_nil.mp ranks.perm.symm)
  | cons best rest =>
    obtain ⟨before, after, split, greatest, greater⟩ := ranks.exists_first
    obtain ⟨goalsBefore, later, rfl, rfl, laterPlans⟩ := List.filterMap_eq_append_iff.mp split
    obtain ⟨unreached, goal, goalsAfter, rfl, none, found, -⟩ :=
      List.filterMap_eq_cons_iff.mp laterPlans
    -- Goals without a plan may stand right before the goal of the best plan.
    refine ⟨goalsBefore ++ unreached, goal, goalsAfter, by simp, found, ?_, ?_⟩
    · exact fun other member plan planned =>
        greatest plan (List.mem_filterMap.mpr ⟨other, member, planned⟩)
    · intro other member plan planned
      rcases List.mem_append.mp member with reached | missed
      · exact greater plan (List.mem_filterMap.mpr ⟨other, reached, planned⟩)
      · exact nomatch (none other missed).symm.trans planned

theorem value_judge (observer : Observer) (state : WorldState) (seen : Observation) :
    (judge observer state seen).value = seen.plan.map fun plan => ⟨plan.netValue state, plan⟩ := by
  rcases seen with ⟨goal, _ | plan⟩ <;> rfl

theorem value_outcomes :
    (outcomes searches search goals).value = goals.map fun goal => ⟨goal, (search goal).value⟩ := by
  rw [outcomes, Recorded.value_bind, searches.collectsInOrder, List.zipWith_map_right,
    List.zipWith_self]
  rfl

theorem events_outcomes :
    (outcomes searches search goals).events = (searches.map search goals).events := by
  rw [outcomes, Recorded.events_bind, Recorded.events_pure, List.append_nil]

/-- The plans to goals are the outcomes of the searches, ranked, and all outcomes are told. -/
theorem value_goals :
    (Ranking.goals searches search observer goals state).value
      = ⟨(bestFirst ((goals.filterMap fun goal => (search goal).value).map
            fun plan => ⟨plan.netValue state, plan⟩)).map Valued.plan,
          goals.map fun goal => ⟨goal, (search goal).value⟩⟩ := by
  simp only [Ranking.goals, Recorded.value_bind, Recorded.value_pure, Recorded.value_mapList,
    value_outcomes, List.map_map, List.filterMap_map, List.map_filterMap]
  simp only [Function.comp_def, value_judge, id]

/-- What the observer does when it is told an outcome, and what it takes to value the plan. -/
def judgement (observer : Observer) (state : WorldState) (seen : Observation) : List Event :=
  observer.react seen ++ seen.plan.toList.flatMap fun plan => (plan.score state).events

theorem events_judge (observer : Observer) (state : WorldState) (seen : Observation) :
    (judge observer state seen).events = judgement observer state seen := by
  rcases seen with ⟨goal, _ | plan⟩ <;> simp [judge, judgement, valued, Recorded.notes]

/-- The journal of a ranking holds what the searches leave, then the judgement of every outcome in
the order in which it is told, and closes with the number of plans. -/
theorem events_goals :
    (Ranking.goals searches search observer goals state).events
      = (searches.map search goals).events
        ++ ((goals.map fun goal => ⟨goal, (search goal).value⟩).flatMap (judgement observer state)
        ++ [.plansRanked (goals.filterMap fun goal => (search goal).value).length
              goals.length]) := by
  have judged : ((goals.map fun goal => (⟨goal, (search goal).value⟩ : Observation)).map
      fun seen => (judge observer state seen).value).filterMap id
        = (goals.filterMap fun goal => (search goal).value).map
            fun plan => ⟨plan.netValue state, plan⟩ := by
    simp only [List.filterMap_map, List.map_filterMap, Function.comp_def, value_judge, id]
  simp only [Ranking.goals, Recorded.events_bind, Recorded.events_pure, Recorded.value_mapList,
    Recorded.events_mapList, value_outcomes, judged, List.length_map, List.append_nil, events_judge,
    events_outcomes]
  rfl

end Ranking

namespace Planner

variable {γ : Type} [TokenLibrary γ] {p : Planner} {determiner : Determiner} {s : Session γ}
  {snapshot : Snapshot} {system : PlanningSystem}

/-- The answers of a planner for a system, in a session where it is given a state, fit the plans
that it has for the single goals there. -/
structure RanksGoals (p : Planner) (system : PlanningSystem) (state : WorldState)
    (outcome : Goal → Option ScoredPlan) (determiner : Determiner) (s : Session γ) : Prop where
  planned : ∀ goal,
    (p.planToGoal determiner s system.actions goal).value.answer = .ok (outcome goal)
  ranked : ∃ plans, (p.plansToGoals determiner s system).value.answer = .ok plans ∧
    Ranking.Ranks state (system.goals.filterMap outcome) plans
  told : (p.plansToGoals determiner s system).value.seen
    = system.goals.map fun goal => ⟨goal, outcome goal⟩
  /-- The journal holds the fetch, if one was due, what the searches leave, those of one goal after
  the other unless they may run at the same time, and the judgements of all that the observer was
  told. -/
  reacted : ∃ searching,
    searching.Perm (system.goals.flatMap fun goal => (p.search system.actions goal state).events) ∧
    (p.parallel = false →
      searching = system.goals.flatMap fun goal => (p.search system.actions goal state).events) ∧
    (p.plansToGoals determiner s system).events = (s.current determiner).events ++ (searching
      ++ ((p.plansToGoals determiner s system).value.seen.flatMap
            (Ranking.judgement p.observer state)
      ++ [.plansRanked (system.goals.filterMap outcome).length system.goals.length]))
  best : ∃ answer, (p.bestPlan determiner s system).value.answer = .ok answer ∧
    Ranking.FirstOfBest state outcome system.goals answer

theorem rank_of_goals (forGoals : p.utility = false) (system : PlanningSystem)
    (state : WorldState) :
    p.rank system state
      = Ranking.goals p.searches (p.search system.actions · state) p.observer system.goals
          state := by
  simp [rank, forGoals]

/-- The journal of an operation holds the fetch and what the operation leaves on the snapshot. -/
theorem events_onSnapshot_of_ok {α : Type}
    (given : (s.current determiner).value.1 = .ok snapshot)
    (operation : WorldState → Recorded (α × List Observation)) :
    (onSnapshot determiner s operation).events
      = (s.current determiner).events ++ (operation snapshot.state).events := by
  unfold onSnapshot
  rw [Recorded.events_bind]
  simp only [given, Recorded.events_bind, Recorded.events_pure, List.append_nil]

theorem events_plansToGoals_of_ok (p : Planner) (system : PlanningSystem)
    (given : (s.current determiner).value.1 = .ok snapshot) :
    (p.plansToGoals determiner s system).events
      = (s.current determiner).events ++ (p.rank system snapshot.state).events := by
  rw [plansToGoals, events_onSnapshot_of_ok given, Recorded.events_bind, Recorded.events_pure,
    List.append_nil]

theorem plansToGoals_of_ok (p : Planner) (system : PlanningSystem)
    (given : (s.current determiner).value.1 = .ok snapshot) :
    (p.plansToGoals determiner s system).value
      = ⟨.ok (p.rank system snapshot.state).value.plans, (p.rank system snapshot.state).value.seen,
          (s.current determiner).value.2⟩ :=
  value_ask_of_ok (q := .plansToGoals system) given

/-- The plan that a planner has for a goal of a system in a state. -/
def outcome (p : Planner) (system : PlanningSystem) (state : WorldState) (goal : Goal) :
    Option ScoredPlan :=
  (p.search system.actions goal state).value

theorem scorer_of_outcome {state : WorldState} {goal : Goal} {plan : ScoredPlan}
    (found : p.outcome system state goal = some plan) : plan.scorer = p.scorer := by
  obtain ⟨_, -, rfl⟩ := Option.map_eq_some_iff.mp found
  rfl

/-- Where a planner is given a snapshot, its answers for a system fit its plans there. -/
theorem ranksGoals (forGoals : p.utility = false)
    (given : (s.current determiner).value.1 = .ok snapshot) :
    p.RanksGoals system snapshot.state (p.outcome system snapshot.state) determiner s := by
  have rank := rank_of_goals forGoals system snapshot.state
  have value : (p.rank system snapshot.state).value = _ := rank ▸ Ranking.value_goals
  have ranks : Ranking.Ranks snapshot.state
      (system.goals.filterMap (p.outcome system snapshot.state))
      (p.rank system snapshot.state).value.plans := by
    rw [value]
    exact Ranking.ranks_bestFirst _ _
  have ranking := p.plansToGoals_of_ok system given
  constructor
  case planned =>
    intro goal
    exact congrArg Reaction.answer (value_ask_of_ok (q := .planToGoal system.actions goal) given)
  case ranked => exact ⟨_, congrArg Reaction.answer ranking, ranks⟩
  case told =>
    rw [ranking, value]
    rfl
  case reacted =>
    refine ⟨(p.searches.map (p.search system.actions · snapshot.state) system.goals).events,
      p.searches.doesEachOnce _ _, fun oneByOne => ?_, ?_⟩
    · rw [searches, oneByOne]
      exact Recorded.events_mapList _ _
    · rw [events_plansToGoals_of_ok p system given, ranking, value, rank, Ranking.events_goals]
      rfl
  case best =>
    exact ⟨_, congrArg Reaction.answer (value_ask_of_ok (q := .bestPlan system) given),
      ranks.firstOfBest⟩

end Planner

/-- On every snapshot a planner that plans for goals ranks exactly the plans that it has for the
single goals, with its own scorer, and tells its observer of all of them, in whatever way it
searches goals at the same time. -/
theorem ranks_goals {γ : Type} [TokenLibrary γ] {p : Planner} (forGoals : p.utility = false)
    (system : PlanningSystem) (snapshot : Snapshot) :
    ∃ outcome : Goal → Option ScoredPlan,
      (∀ goal, ∀ plan ∈ outcome goal, plan.scorer = p.scorer) ∧
      ∀ determiner (s : Session γ), (s.current determiner).value.1 = .ok snapshot →
        p.RanksGoals system snapshot.state outcome determiner s := by
  refine ⟨p.outcome system snapshot.state, ?_, ?_⟩
  · exact fun goal plan found => Planner.scorer_of_outcome found
  · exact fun determiner s given => Planner.ranksGoals forGoals given

namespace FrontDoor

/-- Only the front door is open. -/
def state : WorldState := ⟨.ofList [⟨"frontOpen", .flag true⟩], default⟩

def back : Goal := { name := "back", preconditions := .ofList [⟨"backOpen", .flag true⟩] }

def front : Goal := { name := "front", preconditions := .ofList [⟨"frontOpen", .flag true⟩] }

/-- A planner without actions, which is done where a goal holds. -/
def planner : Planner where
  algorithm := ⟨"look", fun _ goal state =>
    return if goal.isSatisfied state.facts then some ⟨goal, [], 0⟩ else none⟩

def system : PlanningSystem := ⟨[], [back, front], .ofList ["backOpen", "frontOpen"]⟩

end FrontDoor

open FrontDoor in
/-- Of two doors the open one is ranked, and it is the best. -/
theorem ranks_goals_frontDoor :
    (planner.plansToGoals (.static state) ({} : Session) system).value.answer
        = .ok [⟨⟨front, [], 0⟩, .valueMinusCost⟩] ∧
      (planner.bestPlan (.static state) ({} : Session) system).value.answer
        = .ok (some ⟨⟨front, [], 0⟩, .valueMinusCost⟩) := by
  obtain ⟨outcome, -, all⟩ := ranks_goals (γ := Cancellations) (p := planner) rfl system ⟨0, state⟩
  obtain ⟨planned, ⟨plans, ranked, ranks⟩, -, -, answer, best, first⟩ :=
    all (.static state) {} rfl
  have closed : outcome back = none := Except.ok.inj (planned back).symm
  have isOpen : outcome front = some ⟨⟨front, [], 0⟩, .valueMinusCost⟩ :=
    Except.ok.inj (planned front).symm
  have declared : system.goals.filterMap outcome = [⟨⟨front, [], 0⟩, .valueMinusCost⟩] := by
    simp [system, closed, isOpen]
  rw [declared] at ranks
  rw [ranked, best, List.perm_singleton.mp ranks.perm]
  refine ⟨rfl, ?_⟩
  cases answer with
  | none => exact nomatch (first front (by simp [system])).symm.trans isOpen
  | some plan =>
    obtain ⟨before, goal, after, split, found, -⟩ := first
    have member : goal ∈ [back, front] :=
      (show [back, front] = _ from split) ▸ List.mem_append_right _ List.mem_cons_self
    obtain rfl | rfl : goal = back ∨ goal = front := by simpa using member
    · exact nomatch closed.symm.trans found
    · rw [← isOpen, found]

end ActionPlanning
