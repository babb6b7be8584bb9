import ActionPlanning.Journal.Recorded
import ActionPlanning.System

/-!
# Relevant actions

An action is relevant when one of its effects is a tracked condition. At first the preconditions
of the goals are tracked; the preconditions of every relevant action are tracked as well. A sweep
goes through the actions once and marks those found relevant, tracking their preconditions at
once; sweeps are repeated until one finds nothing new. Each sweep before the last marks an action,
so one more sweep than there are actions is enough.
-/

namespace ActionPlanning

namespace Relevance

/-- An action and whether it was found relevant. -/
structure Mark where
  action : Action
  relevant : Bool

/-- The state of a sweep: the conditions tracked so far, the marks of the actions passed, and
whether a new mark was made. -/
structure Sweep where
  tracked : List Condition
  marks : List Mark
  changed : Bool

/-- Whether some effect of an action is tracked. -/
def contributes (tracked : List Condition) (a : Action) : Bool :=
  a.effects.entries.any fun effect => tracked.contains effect

/-- One sweep over the actions. -/
def sweep (tracked : List Condition) : List Mark → Sweep
  | [] => ⟨tracked, [], false⟩
  | mark :: rest =>
    if !mark.relevant && contributes tracked mark.action then
      let after := sweep (tracked ++ mark.action.preconditions.entries) rest
      ⟨after.tracked, ⟨mark.action, true⟩ :: after.marks, true⟩
    else
      let after := sweep tracked rest
      ⟨after.tracked, mark :: after.marks, after.changed⟩

/-- Sweeps until nothing changes, at most `fuel` times. -/
def settle : Nat → List Condition → List Mark → List Mark
  | 0, _, marks => marks
  | fuel + 1, tracked, marks =>
    let after := sweep tracked marks
    if after.changed then settle fuel after.tracked after.marks else after.marks

/-- The actions that can contribute to the wanted conditions, in their order. -/
def relevant (actions : List Action) (wanted : List Condition) : List Action :=
  let marks := actions.map fun a => ⟨a, false⟩
  ((settle (actions.length + 1) wanted marks).filter Mark.relevant).map Mark.action

end Relevance

/-- The system with only the actions that can contribute to some goal. Goals and known keys stay
as they are. -/
def PlanningSystem.prune (s : PlanningSystem) : Recorded PlanningSystem :=
  let kept := Relevance.relevant s.actions (s.goals.flatMap fun g => g.preconditions.entries)
  ⟨{ s with actions := kept }, [.systemPruned s.actions.length kept.length]⟩

end ActionPlanning
