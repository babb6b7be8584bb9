import ActionPlanning.Conditions.Lemmas
import ActionPlanning.Proofs.Planning.Pruning
import ActionPlanning.Proofs.Planning.Relevance
import Mathlib.Order.Bounds.Basic

/-!
# What pruning keeps

Pruning keeps the least set of actions that is closed backwards: it has every action with an effect
that a goal asks for, or that an action in the set needs. Nothing in this depends on the order of
the actions or of the goals, although the order decides in which sweep an action is found. Every
sweep but the last finds an action, so there is at most one sweep more than there are actions.

## Main definitions

* `PlanningSystem.ClosedBackwards`: a set of actions has all that contribute to a goal or to the
  set.
* `Relevance.Settles`: sweeps until one finds nothing new, without a limit on their number.

## Main results

* `PlanningSystem.isLeast_prune`: pruning keeps the least such set.
* `Relevance.exists_settles`: the sweeps come to an end.
* `PlanningSystem.prune_least`: what pruning keeps, how long it takes, and that it is done once.
-/

namespace ActionPlanning

/-- Some effect of the action is one of the targets, with the same key and the same value. -/
def Action.Serves (a : Action) (targets : Conditions) : Prop :=
  ∃ key value, a.effects.get? key = some value ∧ targets.get? key = some value

theorem Action.serves_iff {a : Action} {targets : Conditions} :
    a.Serves targets ↔ ∃ effect ∈ a.effects.entries, effect ∈ targets.entries := by
  rw [Conditions.exists_mem_entries_iff]
  simp only [Serves, Conditions.get?_eq_some_iff]

/-- A set of actions of the system has every action that serves a goal or an action in the set. -/
structure PlanningSystem.ClosedBackwards (s : PlanningSystem) (kept : Set Action) : Prop where
  listed : ∀ a ∈ kept, a ∈ s.actions
  wanted : ∀ a ∈ s.actions, ∀ goal ∈ s.goals, a.Serves goal.preconditions → a ∈ kept
  needed : ∀ a ∈ s.actions, ∀ b ∈ kept, a.Serves b.preconditions → a ∈ kept

namespace Relevance

variable {actions others : List Action} {wanted asked tracked : List Condition} {a : Action}
  {c : Condition} {marks final : List Mark} {rounds : Nat}

/-! ## Sweeps without a limit -/

/-- Sweeping until nothing new is found: how many sweeps that takes, and the marks they leave. -/
inductive Settles : List Condition → List Mark → Nat → List Mark → Prop
  | last {tracked : List Condition} {marks : List Mark} :
    (sweep tracked marks).changed = false → Settles tracked marks 1 (sweep tracked marks).marks
  | again {tracked : List Condition} {marks final : List Mark} {rounds : Nat} :
    (sweep tracked marks).changed = true →
    Settles (sweep tracked marks).tracked (sweep tracked marks).marks rounds final →
    Settles tracked marks (rounds + 1) final

/-- The sweeps come to an end: each but the last marks an action. Enough sweeps leave the same
marks. -/
theorem exists_settles {fuel : Nat} (enough : unmarked marks < fuel) :
    ∃ rounds ≤ unmarked marks + 1, Settles tracked marks rounds (settle fuel tracked marks) := by
  induction fuel generalizing tracked marks with
  | zero => exact absurd enough (Nat.not_lt_zero _)
  | succ fuel ih =>
    have fewer := (swept tracked marks).marking
    rw [settle]
    by_cases changed : (sweep tracked marks).changed = true
    · rw [changed, Bool.toNat_true] at fewer
      rw [if_pos changed]
      have rest : unmarked (sweep tracked marks).marks < fuel := by omega
      obtain ⟨rounds, few, settles⟩ := @ih (sweep tracked marks).tracked _ rest
      exact ⟨rounds + 1, by omega, .again changed settles⟩
    · rw [if_neg changed]
      exact ⟨1, Nat.le_add_left 1 _, .last (Bool.eq_false_iff.mpr changed)⟩

/-! ## What matters -/

/-- What matters does not depend on the order in which actions and conditions are listed. -/
theorem Tracked.mono (actionsGrow : actions ⊆ others) (wantedGrows : wanted ⊆ asked)
    (matters : Tracked actions wanted c) : Tracked others asked c := by
  induction matters with
  | wanted member => exact .wanted (wantedGrows member)
  | needed listed sets _ needs ih => exact .needed (actionsGrow listed) sets ih needs

/-- An action is relevant if it is listed and has an effect that matters. -/
theorem mem_relevant_iff : a ∈ relevant actions wanted ↔
    a ∈ actions ∧ ∃ effect ∈ a.effects.entries, Tracked actions wanted effect := by
  obtain ⟨tracked, matters, kept⟩ := exists_relevant_eq actions wanted
  simp only [kept, List.mem_filter, contributes_iff, matters]

/-- Listing actions and conditions in another order lists the relevant actions in another order. -/
theorem relevant_perm (sameActions : others.Perm actions) (sameWanted : asked.Perm wanted) :
    (relevant others asked).Perm (relevant actions wanted) := by
  obtain ⟨tracked, matters, kept⟩ := exists_relevant_eq actions wanted
  obtain ⟨tracked', matters', kept'⟩ := exists_relevant_eq others asked
  have same (c : Condition) : c ∈ tracked' ↔ c ∈ tracked := by
    rw [matters, matters']
    exact ⟨.mono sameActions.subset sameWanted.subset,
      .mono sameActions.symm.subset sameWanted.symm.subset⟩
  have alike : contributes tracked' = contributes tracked := by
    funext a
    rw [Bool.eq_iff_iff, contributes_iff, contributes_iff]
    simp only [same]
  rw [kept, kept', alike]
  exact sameActions.filter _

end Relevance

namespace PlanningSystem

open Relevance

variable {s t : PlanningSystem} {a : Action}

/-- The conditions that goals ask for. -/
def wanted (s : PlanningSystem) : List Condition :=
  s.goals.flatMap fun goal => goal.preconditions.entries

theorem actions_prune (s : PlanningSystem) :
    s.prune.value.actions = relevant s.actions s.wanted := rfl

theorem mem_wanted_iff {c : Condition} :
    c ∈ s.wanted ↔ ∃ goal ∈ s.goals, c ∈ goal.preconditions.entries :=
  List.mem_flatMap

theorem mem_actions_prune_iff : a ∈ s.prune.value.actions ↔
    a ∈ s.actions ∧ ∃ effect ∈ a.effects.entries, Tracked s.actions s.wanted effect := by
  rw [actions_prune, mem_relevant_iff]

/-- What pruning keeps is closed backwards. -/
theorem closedBackwards_prune (s : PlanningSystem) :
    s.ClosedBackwards {a | a ∈ s.prune.value.actions} where
  listed _ kept := (mem_actions_prune_iff.mp kept).1
  wanted a listed goal member serves := by
    obtain ⟨effect, sets, asked⟩ := Action.serves_iff.mp serves
    exact mem_actions_prune_iff.mpr
      ⟨listed, effect, sets, .wanted (mem_wanted_iff.mpr ⟨goal, member, asked⟩)⟩
  needed a listed b kept serves := by
    obtain ⟨listedB, effectB, setsB, matters⟩ := mem_actions_prune_iff.mp kept
    obtain ⟨effect, sets, needs⟩ := Action.serves_iff.mp serves
    exact mem_actions_prune_iff.mpr ⟨listed, effect, sets, .needed listedB setsB matters needs⟩

/-- Whatever matters is asked for by a goal or by an action of every set that is closed
backwards. -/
theorem ClosedBackwards.asked {kept : Set Action} (closed : s.ClosedBackwards kept)
    {c : Condition} (matters : Tracked s.actions s.wanted c) :
    (∃ goal ∈ s.goals, c ∈ goal.preconditions.entries) ∨
      ∃ b ∈ kept, c ∈ b.preconditions.entries := by
  induction matters with
  | wanted member => exact .inl (mem_wanted_iff.mp member)
  | @needed a effect c listed sets _ needs ih =>
    -- The effect is asked for, so the action that has it belongs to the set.
    refine .inr ⟨a, ?_, needs⟩
    rcases ih with ⟨goal, member, asked⟩ | ⟨b, kept, asked⟩
    · exact closed.wanted a listed goal member (Action.serves_iff.mpr ⟨effect, sets, asked⟩)
    · exact closed.needed a listed b kept (Action.serves_iff.mpr ⟨effect, sets, asked⟩)

/-- Pruning keeps the least set of actions that is closed backwards. -/
theorem isLeast_prune (s : PlanningSystem) :
    IsLeast {kept | s.ClosedBackwards kept} {a | a ∈ s.prune.value.actions} := by
  refine ⟨s.closedBackwards_prune, fun kept closed a pruned => ?_⟩
  obtain ⟨listed, effect, sets, matters⟩ := mem_actions_prune_iff.mp pruned
  rcases closed.asked matters with ⟨goal, member, asked⟩ | ⟨b, keptB, asked⟩
  · exact closed.wanted a listed goal member (Action.serves_iff.mpr ⟨effect, sets, asked⟩)
  · exact closed.needed a listed b keptB (Action.serves_iff.mpr ⟨effect, sets, asked⟩)

/-- Pruning leaves actions out and changes nothing else. -/
theorem exists_prune_filter (s : PlanningSystem) :
    ∃ keep : Action → Bool, s.prune.value.actions = s.actions.filter keep := by
  obtain ⟨tracked, -, kept⟩ := s.exists_prune_eq
  exact ⟨contributes tracked, kept⟩

/-- A set that is closed backwards for the pruned system is so for the system. -/
theorem ClosedBackwards.of_prune {kept : Set Action}
    (closed : s.prune.value.ClosedBackwards kept) : s.ClosedBackwards kept where
  listed a member := s.closedBackwards_prune.listed a (closed.listed a member)
  wanted a listed goal member serves :=
    closed.wanted a (s.closedBackwards_prune.wanted a listed goal member serves) goal member serves
  needed a listed b member serves :=
    closed.needed a (s.closedBackwards_prune.needed a listed b (closed.listed b member) serves) b
      member serves

/-- Pruning a pruned system changes nothing. -/
theorem prune_prune (s : PlanningSystem) : s.prune.value.prune.value = s.prune.value := by
  obtain ⟨keep, kept⟩ := s.prune.value.exists_prune_filter
  have all : s.prune.value.actions.filter keep = s.prune.value.actions := by
    refine List.filter_eq_self.mpr fun a member => ?_
    -- What is kept the second time is closed backwards, and no such set is less than the first.
    have keptAgain : a ∈ s.prune.value.prune.value.actions :=
      s.isLeast_prune.2 s.prune.value.closedBackwards_prune.of_prune member
    rw [kept] at keptAgain
    exact (List.mem_filter.mp keptAgain).2
  have same : s.prune.value.prune.value.actions = s.prune.value.actions := kept.trans all
  exact congrArg (fun actions => { s with actions }) same

/-- What pruning keeps is the least set of actions that is closed backwards, each action as it was
and in its place, whatever the order of the actions and goals. The sweeps end, at most one more
than there are actions, and a second pruning keeps all that the first has kept. -/
theorem prune_least (s : PlanningSystem) :
    IsLeast {kept | s.ClosedBackwards kept} {a | a ∈ s.prune.value.actions} ∧
    (∃ keep : Action → Bool, s.prune.value.actions = s.actions.filter keep) ∧
    (∀ t : PlanningSystem, t.actions.Perm s.actions → t.goals.Perm s.goals →
      t.prune.value.actions.Perm s.prune.value.actions) ∧
    (∃ rounds ≤ s.actions.length + 1, ∃ marks,
      Settles s.wanted (s.actions.map fun a => ⟨a, false⟩) rounds marks ∧
        s.prune.value.actions = (marks.filter Mark.relevant).map Mark.action) ∧
    s.prune.value.prune.value = s.prune.value := by
  refine ⟨s.isLeast_prune, s.exists_prune_filter, fun t sameActions sameGoals => ?_, ?_,
    s.prune_prune⟩
  · exact relevant_perm sameActions (sameGoals.flatMap_right _)
  · have few : unmarked (s.actions.map fun a => ⟨a, false⟩) ≤ s.actions.length :=
      List.countP_le_length.trans_eq (List.length_map _)
    obtain ⟨rounds, atMost, settles⟩ := exists_settles (Nat.lt_succ_of_le few)
    exact ⟨rounds, atMost.trans (Nat.succ_le_succ few), _, settles, rfl⟩

open LockedDoor in
/-- On the porch the door and the key are kept and the view is not, in whatever order they are
listed. -/
theorem prune_least_porch :
    let turned := { porch with actions := [fetchKey, openDoor, seeView] }
    turned.actions.Perm porch.actions ∧ turned.goals.Perm porch.goals ∧
      turned.prune.value.actions.Perm [openDoor, fetchKey] :=
  have turned : [fetchKey, openDoor, seeView].Perm porch.actions :=
    List.reverse_perm porch.actions
  ⟨turned, .refl _, (prune_least porch).2.2.1 _ turned (.refl _)⟩

end PlanningSystem

end ActionPlanning
