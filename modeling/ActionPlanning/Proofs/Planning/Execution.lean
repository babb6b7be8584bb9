import ActionPlanning.Proofs.Conditions.Overlay
import ActionPlanning.Search.Regression

/-!
# Running actions

Actions are run one after the other. A run comes to an end only if each action can be performed in
the state that the actions before it have led to. What must hold before one action so that some
conditions hold after it is exactly what regression asks for.

## Main definitions

* `WorldState.run?`: the state after several actions, if each could be performed in its turn.
* `WorldState.Reaches`: running actions ends in a state that satisfies some conditions.

## Main results

* `Action.satisfies_regress?_iff`: regression asks for exactly what one action needs.
-/

namespace ActionPlanning

namespace WorldState

variable {state last : WorldState} {a : Action} {actions rest : List Action} {wanted : Conditions}

/-- The state after an action, if it can be performed. -/
def step? (state : WorldState) (a : Action) : Option WorldState :=
  if a.canPerform state.facts then some (a.applyTo state) else none

/-- The state after several actions, if each can be performed in the state it is run in. -/
def run? (state : WorldState) (actions : List Action) : Option WorldState :=
  actions.foldlM step? state

/-- Each action can be performed in its turn, and the last state satisfies the conditions. -/
def Reaches (state : WorldState) (wanted : Conditions) (actions : List Action) : Prop :=
  ∃ last, state.run? actions = some last ∧ last.facts.satisfies wanted = true

instance : Decidable (state.Reaches wanted actions) :=
  decidable_of_iff ((state.run? actions).any (·.facts.satisfies wanted) = true) (by
    rw [Option.any_eq_true]
    rfl)

theorem step?_eq_some_iff :
    state.step? a = some last ↔ a.canPerform state.facts = true ∧ a.applyTo state = last := by
  rw [step?, Option.ite_none_right_eq_some, Option.some_inj]

@[simp] theorem run?_nil : state.run? [] = some state := rfl

theorem run?_cons : state.run? (a :: rest) = (state.step? a).bind fun next => next.run? rest := rfl

theorem run?_concat :
    state.run? (rest ++ [a]) = (state.run? rest).bind fun last => last.step? a := by
  simp [run?]

theorem reaches_nil_iff : state.Reaches wanted [] ↔ state.facts.satisfies wanted = true := by
  simp [Reaches]

theorem reaches_cons_iff :
    state.Reaches wanted (a :: rest) ↔
      a.canPerform state.facts = true ∧ (a.applyTo state).Reaches wanted rest := by
  simp only [Reaches, run?_cons, Option.bind_eq_some_iff, step?_eq_some_iff]
  constructor
  · intro reaches
    obtain ⟨last, ⟨_, ⟨performable, rfl⟩, run⟩, reached⟩ := reaches
    exact ⟨performable, last, run, reached⟩
  · intro split
    obtain ⟨performable, last, run, reached⟩ := split
    exact ⟨last, ⟨_, ⟨performable, rfl⟩, run⟩, reached⟩

end WorldState

namespace Action

variable {a : Action} {required before : Conditions} {state : WorldState}

theorem regress?_eq_some_iff :
    a.regress? required = some before ↔
      a.effects.conflictsWith required = false ∧
        a.preconditions.conflictsWith (required.unsatisfiedBy a.effects) = false ∧
        (required.unsatisfiedBy a.effects).apply a.preconditions = before := by
  rw [regress?]
  split
  case isTrue clash => simp [clash]
  case isFalse noClash =>
    dsimp only
    split
    case isTrue conflict => simp [conflict]
    case isFalse noConflict => simp [noClash, noConflict]

/-- A state satisfies what regression asks for exactly when the action can be performed there and
brings about what is required. -/
theorem satisfies_regress?_iff :
    (∃ before, a.regress? required = some before ∧ state.facts.satisfies before = true) ↔
      a.canPerform state.facts = true ∧ (a.applyTo state).facts.satisfies required = true := by
  have applied : (a.applyTo state).facts = state.facts.apply a.effects := rfl
  rw [applied, Conditions.apply_satisfies_iff, canPerform]
  simp only [regress?_eq_some_iff]
  constructor
  · intro asked
    obtain ⟨_, ⟨noClash, noConflict, rfl⟩, satisfied⟩ := asked
    obtain ⟨performable, left⟩ := (Conditions.satisfies_apply_iff noConflict).mp satisfied
    exact ⟨performable, noClash, left⟩
  · intro brought
    obtain ⟨performable, noClash, left⟩ := brought
    -- One state satisfies the preconditions and what is left, so regression does not fail.
    have noConflict := Conditions.conflictsWith_eq_false_of_satisfies performable left
    exact ⟨_, ⟨noClash, noConflict, rfl⟩,
      (Conditions.satisfies_apply_iff noConflict).mpr ⟨performable, left⟩⟩

end Action

/-! ## A locked door -/

namespace LockedDoor

/-- Fetching the key. -/
def fetchKey : Action := { name := "fetchKey", effects := .ofList [⟨"hasKey", .flag true⟩] }

/-- Opening the door, which takes the key. -/
def openDoor : Action where
  name := "openDoor"
  preconditions := .ofList [⟨"hasKey", .flag true⟩]
  effects := .ofList [⟨"doorOpen", .flag true⟩]

/-- Having the door open. -/
def enter : Goal := { name := "enter", preconditions := .ofList [⟨"doorOpen", .flag true⟩] }

/-- Standing outside with nothing. -/
def outside : WorldState := ⟨∅, default⟩

theorem listed_enter : [fetchKey, openDoor] ⊆ [openDoor, fetchKey] :=
  (List.Perm.swap _ _ []).subset

theorem reaches_enter : outside.Reaches enter.preconditions [fetchKey, openDoor] := by
  decide +kernel

end LockedDoor

end ActionPlanning
