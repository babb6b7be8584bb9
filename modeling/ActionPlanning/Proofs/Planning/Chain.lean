import ActionPlanning.Proofs.Planning.Execution

/-!
# Chains of actions

Regression looks for chains. A chain is built from its last action to its first; each action added
must make something hold that is required behind it and that the start does not provide, and what
is required before it is what regression says. A chain is complete once the start satisfies what
is required before its first action.

A complete chain is the same as a run in which every action serves a purpose: it makes something
hold that the start does not provide, and that is needed before any other action makes it hold.
Any run can be trimmed to a complete chain as long as no action restores a fact of the start that
was lost on the way.

## Main definitions

* `Conditions.residual?`: what is required before a chain.
* `Conditions.CompleteChain`: the start satisfies that.
* `Conditions.Needs`, `Conditions.Purposeful`: what the purpose of an action is.

## Main results

* `WorldState.completeChain_iff`: complete chains are the runs of which every action serves a
  purpose.
* `WorldState.exists_sublist_residual?`: trimming a run in which nothing lost is restored.
-/

namespace ActionPlanning

namespace Conditions

/-- What is required before a chain of actions towards wanted conditions, if it is one: every
action achieves something that is required behind it and not provided by the facts. -/
def residual? (facts wanted : Conditions) : List Action → Option Conditions
  | [] => some wanted
  | a :: rest =>
    (residual? facts wanted rest).bind fun required =>
      if a.achievesAny (required.unsatisfiedBy facts) then a.regress? required else none

/-- A chain that starts from what the facts satisfy. -/
def CompleteChain (facts wanted : Conditions) (actions : List Action) : Prop :=
  ∃ first, facts.residual? wanted actions = some first ∧ facts.satisfies first = true

/-- A value of a key is needed by the wanted conditions or by one of the actions before any other
action sets it. -/
def Needs (wanted : Conditions) (key : String) (value : Condition.Value) : List Action → Prop
  | [] => wanted.get? key = some value
  | a :: rest =>
    a.preconditions.get? key = some value ∨
      a.effects.get? key ≠ some value ∧ Needs wanted key value rest

/-- Every action makes something hold that the facts do not provide and that is needed after it. -/
def Purposeful (facts wanted : Conditions) : List Action → Prop
  | [] => True
  | a :: rest =>
    (∃ key value, a.effects.get? key = some value ∧ facts.get? key ≠ some value ∧
      Needs wanted key value rest) ∧ Purposeful facts wanted rest

variable {facts wanted required first : Conditions} {a : Action} {actions rest : List Action}
  {key : String} {value : Condition.Value}

theorem residual?_cons_eq_some_iff :
    facts.residual? wanted (a :: rest) = some first ↔
      ∃ required, facts.residual? wanted rest = some required ∧
        a.achievesAny (required.unsatisfiedBy facts) = true ∧
        a.regress? required = some first := by
  simp only [residual?, Option.bind_eq_some_iff, Option.ite_none_right_eq_some]

/-- If no listed action can come last, only the empty sequence is a chain. -/
theorem eq_nil_of_residual? {chain : List Action}
    (stuck : ∀ a ∈ actions, a.achievesAny (wanted.unsatisfiedBy facts) = true →
      a.regress? wanted = none)
    (listed : chain ⊆ actions) (chained : facts.residual? wanted chain = some first) :
    chain = [] := by
  -- The rest of a chain is a chain too, so it is empty, and the action would come last.
  induction chain generalizing first with
  | nil => rfl
  | cons a rest ih =>
    obtain ⟨required, chainedRest, achieves, regressed⟩ :=
      residual?_cons_eq_some_iff.mp chained
    obtain ⟨listedA, listedRest⟩ := List.cons_subset.mp listed
    obtain rfl := ih listedRest chainedRest
    obtain rfl := Option.some.inj chainedRest
    rw [stuck a listedA achieves] at regressed
    cases regressed

/-- An action achieves something open when it sets a required value that the facts lack. -/
theorem achievesAny_unsatisfiedBy_iff :
    a.achievesAny (required.unsatisfiedBy facts) = true ↔
      ∃ key value, a.effects.get? key = some value ∧ required.get? key = some value ∧
        facts.get? key ≠ some value := by
  rw [Action.achievesAny, overlaps_iff]
  simp only [get?_unsatisfiedBy_eq_some]

/-- If only one listed action can come last, and nothing is required before it, a chain that is not
empty consists of that action. -/
theorem eq_singleton_of_residual? {sole : Action} {chain : List Action}
    (only : ∀ a ∈ actions, a.achievesAny (wanted.unsatisfiedBy facts) = true → a = sole)
    (free : sole.regress? wanted = some ∅)
    (listed : chain ⊆ actions) (chained : facts.residual? wanted chain = some first) :
    chain = [] ∨ chain = [sole] := by
  induction chain generalizing first with
  | nil => exact .inl rfl
  | cons a rest ih =>
    obtain ⟨required, chainedRest, achieves, -⟩ := residual?_cons_eq_some_iff.mp chained
    obtain ⟨listedA, listedRest⟩ := List.cons_subset.mp listed
    rcases ih listedRest chainedRest with rfl | rfl
    · obtain rfl := Option.some.inj chainedRest
      exact .inr (congrArg ([·]) (only a listedA achieves))
    · -- Before the one action nothing is left to achieve.
      obtain ⟨_, chainedNil, -, regressed⟩ := residual?_cons_eq_some_iff.mp chainedRest
      obtain rfl := Option.some.inj chainedNil
      obtain rfl := Option.some.inj (free.symm.trans regressed)
      obtain ⟨key, value, -, asked, -⟩ := achievesAny_unsatisfiedBy_iff.mp achieves
      rw [get?_empty] at asked
      cases asked

/-- What is required before a chain is what is needed. -/
theorem get?_residual?_iff (chain : facts.residual? wanted actions = some required) :
    required.get? key = some value ↔ Needs wanted key value actions := by
  -- Regression drops what an action sets and adds its preconditions, as `Needs` does.
  induction actions generalizing required with
  | nil =>
    obtain rfl := Option.some.inj chain
    rfl
  | cons a rest ih =>
    obtain ⟨behind, chainRest, -, regressed⟩ := residual?_cons_eq_some_iff.mp chain
    obtain ⟨-, noConflict, rfl⟩ := Action.regress?_eq_some_iff.mp regressed
    rw [get?_apply, Option.or_eq_some_iff, Needs, get?_unsatisfiedBy_eq_some, ih chainRest]
    constructor
    · exact Or.imp_right fun ⟨_, needed, unset⟩ => ⟨unset, needed⟩
    · intro needs
      rcases needs with asked | ⟨unset, needed⟩
      · exact .inl asked
      · -- A precondition of the same key asks for the same value.
        cases asked : a.preconditions.get? key with
        | none => exact .inr ⟨rfl, needed, unset⟩
        | some x =>
          have left := get?_unsatisfiedBy_eq_some.mpr ⟨(ih chainRest).mpr needed, unset⟩
          have agree := conflictsWith_eq_false_iff.mp noConflict _ _ _ asked left
          exact .inl (congrArg some agree.symm)

end Conditions

namespace WorldState

open Conditions (residual? CompleteChain Purposeful)

variable {facts wanted first : Conditions} {state : WorldState} {actions rest : List Action}

/-- A chain leads from wherever its beginning is satisfied to what is wanted. -/
theorem reaches_of_residual? (chain : facts.residual? wanted actions = some first)
    (satisfied : state.facts.satisfies first = true) : state.Reaches wanted actions := by
  induction actions generalizing state first with
  | nil =>
    obtain rfl := Option.some.inj chain
    exact reaches_nil_iff.mpr satisfied
  | cons a rest ih =>
    obtain ⟨required, chainRest, -, regressed⟩ := Conditions.residual?_cons_eq_some_iff.mp chain
    obtain ⟨performable, after⟩ :=
      Action.satisfies_regress?_iff.mp ⟨first, regressed, satisfied⟩
    exact reaches_cons_iff.mpr ⟨performable, ih chainRest after⟩

/-- Every action of a chain serves a purpose. -/
theorem purposeful_of_residual? (chain : facts.residual? wanted actions = some first) :
    facts.Purposeful wanted actions := by
  induction actions generalizing first with
  | nil => trivial
  | cons a rest ih =>
    obtain ⟨required, chainRest, achieves, -⟩ :=
      Conditions.residual?_cons_eq_some_iff.mp chain
    obtain ⟨key, value, set, asked, lacking⟩ :=
      Conditions.achievesAny_unsatisfiedBy_iff.mp achieves
    have needed := (Conditions.get?_residual?_iff chainRest).mp asked
    exact ⟨⟨key, value, set, lacking, needed⟩, ih chainRest⟩

/-- A run of which every action serves a purpose is a chain. -/
theorem exists_residual?_of_purposeful (run : state.Reaches wanted actions)
    (purposeful : facts.Purposeful wanted actions) :
    ∃ first, facts.residual? wanted actions = some first ∧ state.facts.satisfies first = true := by
  induction actions generalizing state with
  | nil => exact ⟨wanted, rfl, reaches_nil_iff.mp run⟩
  | cons a rest ih =>
    obtain ⟨performable, runRest⟩ := reaches_cons_iff.mp run
    obtain ⟨⟨key, value, set, lacking, needed⟩, purposefulRest⟩ := purposeful
    obtain ⟨required, chainRest, satisfied⟩ := ih runRest purposefulRest
    obtain ⟨before, regressed, satisfiedBefore⟩ :=
      Action.satisfies_regress?_iff.mpr ⟨performable, satisfied⟩
    have asked := (Conditions.get?_residual?_iff chainRest).mpr needed
    have achieves :=
      Conditions.achievesAny_unsatisfiedBy_iff.mpr ⟨key, value, set, asked, lacking⟩
    exact ⟨before, Conditions.residual?_cons_eq_some_iff.mpr
      ⟨required, chainRest, achieves, regressed⟩, satisfiedBefore⟩

/-- The complete chains are the runs of which every action serves a purpose. -/
theorem completeChain_iff :
    state.facts.CompleteChain wanted actions ↔
      state.Reaches wanted actions ∧ state.facts.Purposeful wanted actions :=
  ⟨fun ⟨_, chain, satisfied⟩ =>
      ⟨reaches_of_residual? chain satisfied, purposeful_of_residual? chain⟩,
    fun ⟨run, purposeful⟩ => exists_residual?_of_purposeful run purposeful⟩

/-- No action sets one of the facts again that was lost before. -/
def RestoresNothing (facts : Conditions) (state : WorldState) : List Action → Prop
  | [] => True
  | a :: rest =>
    (∀ key value, a.effects.get? key = some value → facts.get? key = some value →
      state.facts.get? key = some value) ∧ RestoresNothing facts (a.applyTo state) rest

/-- A run in which nothing lost is restored can be trimmed to a chain by leaving actions out. -/
theorem exists_sublist_residual? (run : state.Reaches wanted actions)
    (restores : RestoresNothing facts state actions) :
    ∃ chain, chain.Sublist actions ∧ ∃ first, facts.residual? wanted chain = some first ∧
      state.facts.satisfies first = true := by
  induction actions generalizing state with
  | nil => exact ⟨[], .slnil, wanted, rfl, reaches_nil_iff.mp run⟩
  | cons a rest ih =>
    obtain ⟨performable, runRest⟩ := reaches_cons_iff.mp run
    obtain ⟨chain, sublist, required, chained, satisfied⟩ := ih runRest restores.2
    -- The action stays in if the trimmed rest needs it, and is left out otherwise.
    by_cases achieves : a.achievesAny (required.unsatisfiedBy facts) = true
    · obtain ⟨before, regressed, satisfiedBefore⟩ :=
        Action.satisfies_regress?_iff.mpr ⟨performable, satisfied⟩
      exact ⟨a :: chain, sublist.cons_cons a, before,
        Conditions.residual?_cons_eq_some_iff.mpr ⟨required, chained, achieves, regressed⟩,
        satisfiedBefore⟩
    · -- Whatever the action sets of what is required held before it.
      refine ⟨chain, sublist.cons a, required, chained, Conditions.satisfies_iff.mpr ?_⟩
      intro key value needed
      have after := Conditions.satisfies_iff.mp satisfied key value needed
      change (state.facts.apply a.effects).get? key = some value at after
      rw [Conditions.get?_apply] at after
      rcases Option.or_eq_some_iff.mp after with set | ⟨-, kept⟩
      · have provided : facts.get? key = some value := by
          apply Decidable.byContradiction
          intro lacking
          apply achieves
          exact Conditions.achievesAny_unsatisfiedBy_iff.mpr ⟨key, value, set, needed, lacking⟩
        exact restores.1 key value set provided
      · exact kept

/-- Where no effect conflicts with the facts, nothing is ever lost. -/
theorem restoresNothing_of_noConflict
    (keeps : ∀ a ∈ actions, a.effects.conflictsWith facts = false)
    (provided : state.facts.satisfies facts = true) : RestoresNothing facts state actions := by
  induction actions generalizing state with
  | nil => trivial
  | cons a rest ih =>
    rw [Conditions.satisfies_iff] at provided
    refine ⟨fun key value _ fact => provided key value fact,
      ih (fun b member => keeps b (List.mem_cons_of_mem _ member)) ?_⟩
    have noClash := keeps a List.mem_cons_self
    refine Conditions.apply_satisfies_iff.mpr ⟨noClash, Conditions.satisfies_iff.mpr ?_⟩
    exact fun key value left => provided key value (Conditions.get?_unsatisfiedBy_eq_some.mp left).1

theorem facts_satisfies_self (state : WorldState) : state.facts.satisfies state.facts = true :=
  state.facts.satisfies_self

/-- Where no effect conflicts with the start, every run can be trimmed to a complete chain. -/
theorem exists_sublist_completeChain (run : state.Reaches wanted actions)
    (keeps : ∀ a ∈ actions, a.effects.conflictsWith state.facts = false) :
    ∃ chain, chain.Sublist actions ∧ state.facts.CompleteChain wanted chain :=
  exists_sublist_residual? run (restoresNothing_of_noConflict keeps state.facts_satisfies_self)

end WorldState

theorem LockedDoor.completeChain_enter :
    outside.facts.CompleteChain enter.preconditions [fetchKey, openDoor] :=
  ⟨∅, by decide +kernel, by decide +kernel⟩

end ActionPlanning
