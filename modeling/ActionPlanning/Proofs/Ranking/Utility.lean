import ActionPlanning.Proofs.Planning.Execution
import ActionPlanning.Proofs.Ranking.Goals

/-!
# Ranking the actions worth running now

A planner may rank actions instead of planning for goals. An action is useful in a state if all its
preconditions hold there and some of its effects does not. Every useful entry of a catalog becomes a
plan of one step towards the effects of the action; the same entry twice becomes two plans, and
entries that are of no use become none. The plans are ranked by whatever the scorer says they are
worth, and the observer is told of each in the order of the ranking.

## Main definitions

* `Action.Useful`: an action can be performed and changes something.
* `Ranking.soleStep`, `Ranking.assessment`: the plan that an action becomes, and what it leaves in
  the journal to price and value it.
* `Ranking.RanksUseful`: a list holds the plans of the useful actions, ranked.
* `Planner.RanksActions`: a planner answers with such a list and tells its observer of it.

## Main results

* `ranks_useful`: ranking actions yields such lists, on every snapshot.
-/

namespace ActionPlanning

namespace Action

/-- An action can be performed in a state, and changes something there. -/
structure Useful (a : Action) (state : WorldState) : Prop where
  /-- All preconditions hold. -/
  performable : ∀ key value, a.preconditions.get? key = some value →
    state.facts.get? key = some value
  /-- Some effect does not hold. -/
  changes : ∃ key value, a.effects.get? key = some value ∧ state.facts.get? key ≠ some value

variable {a : Action} {state : WorldState}

theorem canPerform_iff :
    a.canPerform state.facts = true ↔ ∀ key value, a.preconditions.get? key = some value →
      state.facts.get? key = some value :=
  Conditions.satisfies_iff

/-- The effects of an action do not all hold if one of them does not. -/
theorem satisfies_effects_eq_false_iff :
    state.facts.satisfies a.effects = false ↔
      ∃ key value, a.effects.get? key = some value ∧ state.facts.get? key ≠ some value := by
  rw [Bool.eq_false_iff, Ne, Conditions.satisfies_iff]
  simp only [Classical.not_forall, exists_prop]

theorem isCandidate_iff : Ranking.isCandidate state a = true ↔ a.Useful state := by
  rw [Ranking.isCandidate, Bool.and_eq_true, Bool.not_eq_true', canPerform_iff,
    satisfies_effects_eq_false_iff]
  exact ⟨fun ⟨performable, changes⟩ => ⟨performable, changes⟩,
    fun useful => ⟨useful.performable, useful.changes⟩⟩

instance : Decidable (a.Useful state) := decidable_of_iff _ isCandidate_iff

/-- A useful action brings about its effects, which do not all hold before. -/
theorem Useful.brings (useful : a.Useful state) :
    state.Reaches a.effects [a] ∧ state.facts.satisfies a.effects = false := by
  have after : (a.applyTo state).facts.satisfies a.effects = true :=
    Conditions.satisfies_iff.mpr fun key value set => by
      rw [applyTo, WorldState.successor, Conditions.get?_apply, set, Option.some_or]
  refine ⟨WorldState.reaches_cons_iff.mpr ⟨canPerform_iff.mpr useful.performable, ?_⟩,
    satisfies_effects_eq_false_iff.mpr useful.changes⟩
  exact WorldState.reaches_nil_iff.mpr after

end Action

namespace Ranking

variable {scorer : Scorer} {state : WorldState} {actions : List Action} {observer : Observer}
  {system : PlanningSystem}

/-- The plan of one action towards its own effects. -/
def soleStep (scorer : Scorer) (state : WorldState) (a : Action) : ScoredPlan :=
  ⟨⟨.ofAction a, [a], Plan.costOf [a] state⟩, scorer⟩

/-- A list holds the plans of the useful actions in a catalog, ranked. -/
structure RanksUseful (scorer : Scorer) (state : WorldState) (actions : List Action)
    (plans : List ScoredPlan) : Prop where
  /-- There is one plan for each entry of a useful action and no other, none stands before a better
  one, and those of the same value stand in the order of the catalog. -/
  ranks : Ranks state ((actions.filter fun a => a.Useful state).map (soleStep scorer state)) plans
  /-- The action of a plan can be run and brings about the goal of the plan, which does not hold
  before. -/
  brings : ∀ p ∈ plans, state.Reaches p.plan.goal.preconditions p.plan.actions ∧
    p.plan.goal.isSatisfied state.facts = false

/-- What it leaves in the journal to price an action and value its plan. -/
def assessment (scorer : Scorer) (state : WorldState) (a : Action) : List Event :=
  a.costEvents state ++ ((soleStep scorer state a).score state).events

theorem value_oneStep (a : Action) :
    (oneStep scorer state a).value
      = ⟨(soleStep scorer state a).netValue state, soleStep scorer state a⟩ := rfl

theorem events_oneStep (a : Action) :
    (oneStep scorer state a).events = assessment scorer state a := by
  simp [oneStep, assessment, valued, Plan.make, Plan.costEventsOf, soleStep]

theorem filter_isCandidate :
    actions.filter (isCandidate state) = actions.filter fun a => a.Useful state :=
  List.filter_congr fun _ _ => Bool.eq_iff_iff.mpr
    (Action.isCandidate_iff.trans decide_eq_true_iff.symm)

theorem ranksUseful_performable :
    RanksUseful scorer state actions (performable actions state scorer).value := by
  have value : (performable actions state scorer).value
      = (bestFirst (((actions.filter fun a => a.Useful state).map (soleStep scorer state)).map
          fun plan => ⟨plan.netValue state, plan⟩)).map Valued.plan := by
    simp only [performable, Recorded.value_bind, Recorded.value_pure, Recorded.value_mapList,
      filter_isCandidate, List.map_map]
    simp only [Function.comp_def, value_oneStep]
  have ranks : Ranks state ((actions.filter fun a => a.Useful state).map (soleStep scorer state))
      (performable actions state scorer).value := value ▸ ranks_bestFirst _ _
  refine ⟨ranks, fun p member => ?_⟩
  obtain ⟨a, useful, rfl⟩ := List.mem_map.mp (ranks.perm.mem_iff.mp member)
  exact (of_decide_eq_true (List.mem_filter.mp useful).2 : a.Useful state).brings

/-- The journal of a ranking holds the assessment of every useful action in the order of the
catalog, how many there are, and then what the observer does as it is told of the plans. -/
theorem events_utility :
    (utility scorer observer system state).events
      = (system.actions.filter fun a => a.Useful state).flatMap (assessment scorer state)
        ++ (.candidatesRanked (system.actions.filter fun a => a.Useful state).length
              system.actions.length
        :: (utility scorer observer system state).value.seen.flatMap observer.react) := by
  simp only [utility, performable, Recorded.events_bind, Recorded.events_pure,
    Recorded.events_mapList, Recorded.value_mapList, filter_isCandidate, List.length_map,
    List.append_nil, List.append_assoc, events_oneStep]
  rfl

end Ranking

namespace Planner

variable {γ : Type} [TokenLibrary γ] {p : Planner} {determiner : Determiner} {s : Session γ}
  {snapshot : Snapshot}

/-- A planner answers with the ranked actions of a system, in a session where it is given a state,
and tells its observer of each of them in that order. -/
structure RanksActions (p : Planner) (system : PlanningSystem) (state : WorldState)
    (determiner : Determiner) (s : Session γ) : Prop where
  ranked : (p.plansToGoals determiner s system).value.answer
    = .ok (Ranking.performable system.actions state p.scorer).value
  told : (p.plansToGoals determiner s system).value.seen
    = (Ranking.performable system.actions state p.scorer).value.map fun plan =>
        ⟨plan.plan.goal, some plan⟩
  /-- The journal holds the fetch, if one was due, the assessments of the useful actions and their
  number, and then what the observer does in return for what it is told. -/
  reacted : (p.plansToGoals determiner s system).events = (s.current determiner).events
    ++ ((system.actions.filter fun a => a.Useful state).flatMap (Ranking.assessment p.scorer state)
    ++ (.candidatesRanked (system.actions.filter fun a => a.Useful state).length
          system.actions.length
    :: (p.plansToGoals determiner s system).value.seen.flatMap p.observer.react))

/-- Where a planner is given a snapshot, it answers with the ranked actions. -/
theorem ranksActions (forActions : p.utility = true) (system : PlanningSystem)
    (given : (s.current determiner).value.1 = .ok snapshot) :
    p.RanksActions system snapshot.state determiner s := by
  have rank : p.rank system snapshot.state
      = Ranking.utility p.scorer p.observer system snapshot.state := by
    simp [Planner.rank, forActions]
  have ranking := p.plansToGoals_of_ok system given
  rw [rank] at ranking
  constructor
  case ranked => exact congrArg Reaction.answer ranking
  case told => exact congrArg Reaction.seen ranking
  case reacted =>
    rw [events_plansToGoals_of_ok p system given, ranking, rank]
    exact congrArg _ Ranking.events_utility

end Planner

/-- For any catalog, state and scorer the ranked actions are exactly the useful ones, each as a plan
that brings about something new. A planner that ranks actions answers with them on every snapshot,
whatever the goals of the system, and tells its observer of each of them once, best first. -/
theorem ranks_useful {γ : Type} [TokenLibrary γ] :
    (∀ (actions : List Action) (state : WorldState) (scorer : Scorer),
      Ranking.RanksUseful scorer state actions (Ranking.performable actions state scorer).value) ∧
    ∀ (p : Planner) (system : PlanningSystem) (determiner : Determiner) (s : Session γ)
      (snapshot : Snapshot), p.utility = true → (s.current determiner).value.1 = .ok snapshot →
        p.RanksActions system snapshot.state determiner s :=
  ⟨fun _ _ _ => Ranking.ranksUseful_performable,
    fun _ system _ _ _ forActions given => Planner.ranksActions forActions system given⟩

namespace LockedDoor

/-- Waiting, which has no effect. -/
def wait : Action := { name := "wait" }

/-- A planner that ranks actions. -/
def chooser : Planner := { utility := true }

/-- The locked door, with a key that two entries fetch. -/
def twoWays : PlanningSystem where
  actions := [openDoor, fetchKey, wait, fetchKey]
  goals := [enter]
  known := .ofList ["doorOpen", "hasKey"]

end LockedDoor

open LockedDoor in
/-- Without the key only fetching it is useful, and each entry for that becomes a plan. -/
theorem ranks_useful_twoWays :
    (chooser.plansToGoals (.static outside) ({} : Session) twoWays).value.answer
      = .ok [Ranking.soleStep .valueMinusCost outside fetchKey,
          Ranking.soleStep .valueMinusCost outside fetchKey] := by
  obtain ⟨useful, answers⟩ := ranks_useful (γ := Cancellations)
  have answer := (answers chooser twoWays (.static outside) {} ⟨0, outside⟩ rfl rfl).ranked
  have entries : twoWays.actions.filter (fun a => a.Useful outside) = [fetchKey, fetchKey] := rfl
  have perm := (useful twoWays.actions outside .valueMinusCost).ranks.perm
  rw [entries] at perm
  rw [answer]
  exact congrArg _ (List.eq_replicate_iff.mpr ⟨perm.length_eq, fun plan member => by
    simpa using perm.mem_iff.mp member⟩)

end ActionPlanning
