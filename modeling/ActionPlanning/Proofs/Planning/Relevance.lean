import ActionPlanning.System.Relevance

/-!
# What is found relevant

A condition matters if it is wanted, or if an action with an effect that matters needs it. Sweeps
track conditions that matter and no others. One that finds nothing new has tracked all of them:
whatever the actions that were found relevant need is tracked by then, and no other action has a
tracked effect. Since every sweep before it marks an action, that one comes before the sweeps are
broken off.

## Main definitions

* `Tracked`: a condition matters.
* `Progress`: what holds of the tracked conditions and the marks between sweeps.
* `Closed`: whatever is wanted or needed is tracked.

## Main results

* `Progress.sweep`: a sweep keeps this.
* `exists_relevant_eq`: the relevant actions are those with an effect that matters.
* `PlanningSystem.exists_prune_eq`: pruning keeps the actions with an effect among conditions that
  are closed for every goal.
-/

namespace ActionPlanning

namespace Relevance

/-- A condition matters: it is wanted, or an action with an effect that matters needs it. -/
inductive Tracked (actions : List Action) (wanted : List Condition) : Condition → Prop
  | wanted {c : Condition} : c ∈ wanted → Tracked actions wanted c
  | needed {a : Action} {effect c : Condition} : a ∈ actions → effect ∈ a.effects.entries →
    Tracked actions wanted effect → c ∈ a.preconditions.entries → Tracked actions wanted c

/-- A mark is backed by what is tracked: an action that is marked has a tracked effect, and what
it needs is tracked. -/
def Mark.Backed (mark : Mark) (tracked : List Condition) : Prop :=
  mark.relevant = true → contributes tracked mark.action = true ∧
    mark.action.preconditions.entries ⊆ tracked

/-- The number of actions that are not marked. -/
def unmarked (marks : List Mark) : Nat := marks.countP fun mark => !mark.relevant

variable {actions : List Action} {wanted tracked later : List Condition} {a : Action} {mark : Mark}
  {marks : List Mark}

theorem contributes_iff :
    contributes tracked a = true ↔ ∃ effect ∈ a.effects.entries, effect ∈ tracked := by
  simp [contributes]

theorem contributes_mono (grows : tracked ⊆ later) (contributed : contributes tracked a = true) :
    contributes later a = true := by
  rw [contributes_iff] at contributed ⊢
  obtain ⟨effect, sets, member⟩ := contributed
  exact ⟨effect, sets, grows member⟩

theorem Mark.Backed.mono (backed : mark.Backed tracked) (grows : tracked ⊆ later) :
    mark.Backed later := by
  intro marked
  obtain ⟨contributed, needs⟩ := backed marked
  exact ⟨contributes_mono grows contributed, List.Subset.trans needs grows⟩

/-- What one sweep does. It passes the actions in their order, tracks what matters, backs its
marks, and marks an action if it changes anything. If it changes nothing, no action that is not
marked has a tracked effect. -/
structure Swept (tracked : List Condition) (marks : List Mark) (after : Sweep) : Prop where
  passes : after.marks.map Mark.action = marks.map Mark.action
  grows : tracked ⊆ after.tracked
  matters : ∀ {actions : List Action} {wanted : List Condition}, marks.map Mark.action ⊆ actions →
    (∀ c ∈ tracked, Tracked actions wanted c) → ∀ c ∈ after.tracked, Tracked actions wanted c
  backed : (∀ mark ∈ marks, mark.Backed tracked) → ∀ mark ∈ after.marks, mark.Backed after.tracked
  marking : unmarked after.marks + after.changed.toNat ≤ unmarked marks
  still : after.changed = false → after.marks = marks ∧
    ∀ mark ∈ marks, mark.relevant = false → contributes tracked mark.action = false

/-- A sweep that marks its first action goes on with what that action needs. -/
theorem Swept.cons_marked {rest : List Mark} {after : Sweep}
    (swept : Swept (tracked ++ mark.action.preconditions.entries) rest after)
    (isUnmarked : mark.relevant = false) (contributed : contributes tracked mark.action = true) :
    Swept tracked (mark :: rest)
      ⟨after.tracked, ⟨mark.action, true⟩ :: after.marks, true⟩ := by
  have grows := List.Subset.trans (List.subset_append_left _ _) swept.grows
  refine ⟨congrArg (mark.action :: ·) swept.passes, grows, fun listed matters => ?_,
    fun backed => ?_, ?_, nofun⟩
  · obtain ⟨listedMark, listedRest⟩ := List.cons_subset.mp listed
    refine swept.matters listedRest fun c member => ?_
    rcases List.mem_append.mp member with member | needs
    · exact matters c member
    · obtain ⟨effect, sets, member⟩ := contributes_iff.mp contributed
      exact .needed listedMark sets (matters effect member) needs
  · obtain ⟨-, backedRest⟩ := List.forall_mem_cons.mp backed
    refine List.forall_mem_cons.mpr ⟨fun _ => ⟨contributes_mono grows contributed, ?_⟩, ?_⟩
    · exact List.Subset.trans (List.subset_append_right _ _) swept.grows
    · exact swept.backed fun other member =>
        (backedRest other member).mono (List.subset_append_left _ _)
  · have fewer := swept.marking
    simp only [unmarked, List.countP_cons, isUnmarked, Bool.toNat_true] at fewer ⊢
    simp only [Bool.not_true, Bool.not_false, Bool.false_eq_true, if_true, if_false]
    omega

/-- A sweep that does not mark its first action goes on as it is. -/
theorem Swept.cons_passed {rest : List Mark} {after : Sweep} (swept : Swept tracked rest after)
    (idle : mark.relevant = false → contributes tracked mark.action = false) :
    Swept tracked (mark :: rest) ⟨after.tracked, mark :: after.marks, after.changed⟩ := by
  refine ⟨congrArg (mark.action :: ·) swept.passes, swept.grows, fun listed => ?_,
    fun backed => ?_, ?_, fun unchanged => ?_⟩
  · exact swept.matters (List.cons_subset.mp listed).2
  · obtain ⟨backedMark, backedRest⟩ := List.forall_mem_cons.mp backed
    exact List.forall_mem_cons.mpr ⟨backedMark.mono swept.grows, swept.backed backedRest⟩
  · have fewer := swept.marking
    simp only [unmarked, List.countP_cons] at fewer ⊢
    omega
  · obtain ⟨same, idleRest⟩ := swept.still unchanged
    exact ⟨congrArg (mark :: ·) same, List.forall_mem_cons.mpr ⟨idle, idleRest⟩⟩

theorem swept (tracked : List Condition) (marks : List Mark) :
    Swept tracked marks (sweep tracked marks) := by
  -- What is tracked grows as actions are passed, so each is looked at with more of it.
  induction marks generalizing tracked with
  | nil =>
    exact ⟨rfl, List.Subset.refl _, fun _ matters => matters, fun backed => backed,
      Nat.le_refl _, fun _ => ⟨rfl, fun _ member => absurd member List.not_mem_nil⟩⟩
  | cons mark rest ih =>
    rw [sweep]
    split
    case isTrue found =>
      obtain ⟨isUnmarked, contributed⟩ := Bool.and_eq_true_iff.mp found
      exact (ih _).cons_marked (by simpa using isUnmarked) contributed
    case isFalse passed =>
      exact (ih tracked).cons_passed fun isUnmarked => by simpa [isUnmarked] using passed

/-- What holds between sweeps: all actions are passed, what is wanted is tracked, whatever is
tracked matters, and every mark is backed. -/
structure Progress (actions : List Action) (wanted tracked : List Condition) (marks : List Mark) :
    Prop where
  passed : marks.map Mark.action = actions
  start : wanted ⊆ tracked
  matters : ∀ c ∈ tracked, Tracked actions wanted c
  backed : ∀ mark ∈ marks, mark.Backed tracked

theorem Progress.sweep (progress : Progress actions wanted tracked marks) :
    Progress actions wanted (sweep tracked marks).tracked (sweep tracked marks).marks := by
  have swept := swept tracked marks
  refine ⟨swept.passes.trans progress.passed, List.Subset.trans progress.start swept.grows,
    swept.matters ?_ progress.matters, swept.backed progress.backed⟩
  rw [progress.passed]
  exact List.Subset.refl _

/-- With enough sweeps, actions are left unmarked only if they have no tracked effect. -/
theorem Progress.settle (progress : Progress actions wanted tracked marks) {fuel : Nat}
    (enough : unmarked marks < fuel) :
    ∃ final, Progress actions wanted final (settle fuel tracked marks) ∧
      ∀ mark ∈ settle fuel tracked marks, mark.relevant = false →
        contributes final mark.action = false := by
  induction fuel generalizing tracked marks with
  | zero => exact absurd enough (Nat.not_lt_zero _)
  | succ fuel ih =>
    have swept := swept tracked marks
    rw [Relevance.settle]
    by_cases changed : (Relevance.sweep tracked marks).changed = true
    · rw [if_pos changed]
      have fewer := swept.marking
      rw [changed, Bool.toNat_true] at fewer
      exact ih progress.sweep (by omega)
    · rw [if_neg changed]
      obtain ⟨same, idle⟩ := swept.still (Bool.eq_false_iff.mpr changed)
      rw [same]
      exact ⟨tracked, progress, idle⟩

/-- Once no action is left to mark, whatever matters is tracked. -/
theorem Progress.mem_iff (progress : Progress actions wanted tracked marks)
    (idle : ∀ mark ∈ marks, mark.relevant = false → contributes tracked mark.action = false)
    (c : Condition) : c ∈ tracked ↔ Tracked actions wanted c := by
  constructor
  · exact progress.matters c
  · intro matters
    induction matters with
    | wanted member => exact progress.start member
    | @needed a effect c listed sets _ needs member =>
      rw [← progress.passed] at listed
      obtain ⟨mark, marked, rfl⟩ := List.mem_map.mp listed
      have contributed := contributes_iff.mpr ⟨effect, sets, member⟩
      -- An action with a tracked effect is marked, so what it needs is tracked.
      cases relevant : mark.relevant with
      | false => exact Bool.noConfusion (contributed.symm.trans (idle mark marked relevant))
      | true => exact (progress.backed mark marked relevant).2 needs

/-- The relevant actions are those with an effect that matters, in their order. -/
theorem exists_relevant_eq (actions : List Action) (wanted : List Condition) :
    ∃ tracked, (∀ c, c ∈ tracked ↔ Tracked actions wanted c) ∧
      relevant actions wanted = actions.filter (contributes tracked) := by
  have start : Progress actions wanted wanted (actions.map fun a => ⟨a, false⟩) := by
    refine ⟨?_, List.Subset.refl _, fun _ => .wanted, fun mark member marked => ?_⟩
    · simp [Function.comp_def]
    · obtain ⟨a, -, rfl⟩ := List.mem_map.mp member
      exact Bool.noConfusion marked
  have enough : unmarked (actions.map fun a => ⟨a, false⟩) < actions.length + 1 := by
    have within : unmarked (actions.map fun a => ⟨a, false⟩) ≤ _ := List.countP_le_length
    rw [List.length_map] at within
    exact Nat.lt_succ_of_le within
  obtain ⟨tracked, progress, idle⟩ := start.settle enough
  refine ⟨tracked, progress.mem_iff idle, ?_⟩
  rw [relevant]
  generalize settle (actions.length + 1) wanted _ = marks at progress idle ⊢
  rw [← progress.passed, List.filter_map]
  refine congrArg (List.map Mark.action) (List.filter_congr fun mark member => ?_)
  -- Marked actions have a tracked effect, and the others have none.
  cases marked : mark.relevant with
  | false => exact (idle mark member marked).symm
  | true => exact (progress.backed mark member marked).1.symm

/-- Tracked conditions are closed: what is wanted is among them, and so is whatever an action with
a tracked effect needs. -/
structure Closed (actions : List Action) (wanted tracked : List Condition) : Prop where
  wanted : wanted ⊆ tracked
  needs : ∀ a ∈ actions, contributes tracked a = true → a.preconditions.entries ⊆ tracked

end Relevance

/-- Pruning keeps the actions with an effect among some conditions that are closed for every
goal. -/
theorem PlanningSystem.exists_prune_eq (s : PlanningSystem) :
    ∃ tracked, (∀ goal ∈ s.goals,
        Relevance.Closed s.actions goal.preconditions.entries tracked) ∧
      s.prune.value.actions = s.actions.filter (Relevance.contributes tracked) := by
  obtain ⟨tracked, matters, kept⟩ := Relevance.exists_relevant_eq s.actions
    (s.goals.flatMap fun goal => goal.preconditions.entries)
  refine ⟨tracked, fun goal member => ⟨fun c wanted => ?_, fun a listed contributed c needs => ?_⟩,
    kept⟩
  · exact (matters c).mpr (.wanted (List.mem_flatMap.mpr ⟨goal, member, wanted⟩))
  · obtain ⟨effect, sets, isTracked⟩ := Relevance.contributes_iff.mp contributed
    exact (matters c).mpr (.needed listed sets ((matters effect).mp isTracked) needs)

end ActionPlanning
