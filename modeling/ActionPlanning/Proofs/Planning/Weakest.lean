import ActionPlanning.Proofs.Planning.Chain

/-!
# Weakest preconditions

Regression answers a question about states by a set of conditions: in which states can an action be
performed so that what is required holds after it? It is the states that satisfy the set, no more
and no fewer, whatever keys the effects, the preconditions and the required conditions share; an
action may even undo its own preconditions. If there is no answer, then there is no such state at
all.

## Main definitions

* `Action.BringsAbout`: an action can be performed in a state, and leaves it as required.

## Main results

* `Action.regress_weakest`: regression through one action.
-/

namespace ActionPlanning

namespace Action

/-- The action can be performed in the state, and what is required holds in the state after it. -/
def BringsAbout (a : Action) (required : Conditions) (state : WorldState) : Prop :=
  a.canPerform state.facts = true ∧ (a.applyTo state).facts.satisfies required = true

variable {a : Action} {required before : Conditions}

/-- The conditions that regression answers with, taken as a state, are one in which the action
brings about what is required. -/
theorem bringsAbout_of_regress? (regressed : a.regress? required = some before)
    (observed : Moment) : a.BringsAbout required ⟨before, observed⟩ :=
  satisfies_regress?_iff.mp ⟨before, regressed, WorldState.facts_satisfies_self ⟨before, observed⟩⟩

/-- An action brings about what is required in exactly the states that satisfy what regression
answers with, and regression has no answer exactly if there is no such state. -/
theorem regress_weakest (a : Action) (required : Conditions) :
    (∀ state : WorldState, a.BringsAbout required state ↔
      ∃ before, a.regress? required = some before ∧ state.facts.satisfies before = true) ∧
    (a.regress? required = none ↔ ∀ state, ¬ a.BringsAbout required state) := by
  have exact_iff (state : WorldState) : a.BringsAbout required state ↔
      ∃ before, a.regress? required = some before ∧ state.facts.satisfies before = true :=
    satisfies_regress?_iff.symm
  refine ⟨exact_iff, ?_⟩
  constructor
  · intro none state brings
    obtain ⟨before, regressed, -⟩ := (exact_iff state).mp brings
    exact nomatch none.symm.trans regressed
  · -- An answer would be satisfied by the state that holds just what it asks for.
    intro never
    rw [Option.eq_none_iff_forall_ne_some]
    exact fun before regressed => never _ (bringsAbout_of_regress? regressed default)

end Action

end ActionPlanning
