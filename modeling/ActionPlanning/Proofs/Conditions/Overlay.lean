import ActionPlanning.Conditions.Lemmas

/-!
# Overlaying conditions and satisfying them

Two questions come up whenever an action is planned. Which states satisfy targets that one set was
overlaid on? And when does a state satisfy targets after effects were overlaid on it? In both the
answer falls apart into one condition for each of the sets, once they do not conflict.

## Main results

* `satisfies_apply_iff`: what satisfies one set overlaid on another.
* `apply_satisfies_iff`: when targets are satisfied after effects.
-/

namespace ActionPlanning.Conditions

variable {state targets effects above : Conditions} {key : String} {value : Condition.Value}

theorem conflictsWith_eq_false_iff :
    effects.conflictsWith targets = false ↔ ∀ key x y, effects.get? key = some x →
      targets.get? key = some y → y = x := by
  rw [Bool.eq_false_iff, Ne, conflictsWith_iff]
  constructor
  · intro none key x y set wanted
    apply Decidable.byContradiction
    intro differ
    exact none ⟨key, x, y, set, wanted, differ⟩
  · intro agree conflict
    obtain ⟨key, x, y, set, wanted, differ⟩ := conflict
    exact differ (agree key x y set wanted)

/-- A target is left unless the state provides it. -/
theorem get?_unsatisfiedBy_eq_some :
    (targets.unsatisfiedBy state).get? key = some value ↔
      targets.get? key = some value ∧ state.get? key ≠ some value := by
  rw [get?_unsatisfiedBy, Option.filter_eq_some_iff, Bool.not_eq_true', ← Bool.not_eq_true,
    holds_iff]

/-- Taken as a state, a set satisfies itself. -/
theorem satisfies_self (c : Conditions) : c.satisfies c = true :=
  satisfies_iff.mpr fun _ _ => id

/-- What a set satisfies is satisfied by every set that satisfies it. -/
theorem satisfies_trans (first : state.satisfies above = true)
    (second : above.satisfies targets = true) : state.satisfies targets = true := by
  rw [satisfies_iff] at first second ⊢
  exact fun key value wanted => first key value (second key value wanted)

/-- Sets that one state satisfies do not conflict. -/
theorem conflictsWith_eq_false_of_satisfies (first : state.satisfies above = true)
    (second : state.satisfies targets = true) : above.conflictsWith targets = false := by
  rw [satisfies_iff] at first second
  refine conflictsWith_eq_false_iff.mpr fun key x y set wanted => ?_
  exact Option.some.inj ((second key y wanted).symm.trans (first key x set))

/-- A state satisfies one set overlaid on another that it does not conflict with exactly when it
satisfies both. -/
theorem satisfies_apply_iff (agree : above.conflictsWith targets = false) :
    state.satisfies (targets.apply above) = true ↔
      state.satisfies above = true ∧ state.satisfies targets = true := by
  rw [conflictsWith_eq_false_iff] at agree
  simp only [satisfies_iff, get?_apply]
  constructor
  · intro both
    have first (key : String) (value : Condition.Value) (set : above.get? key = some value) :
        state.get? key = some value := both key value (by rw [set, Option.some_or])
    refine ⟨first, fun key value wanted => ?_⟩
    -- Where the upper set hides a target, it asks for the same value.
    cases set : above.get? key with
    | none => exact both key value (by rw [set, Option.none_or, wanted])
    | some x => exact agree key x value set wanted ▸ first key x set
  · intro both key value set
    obtain ⟨first, second⟩ := both
    rcases Option.or_eq_some_iff.mp set with set | ⟨-, wanted⟩
    · exact first key value set
    · exact second key value wanted

/-- Overlaying the same effects keeps one set satisfied by another. -/
theorem apply_satisfies_apply (satisfied : state.satisfies targets = true) (effects : Conditions) :
    (state.apply effects).satisfies (targets.apply effects) = true := by
  rw [satisfies_iff] at satisfied ⊢
  intro key value set
  rw [get?_apply] at set ⊢
  rcases Option.or_eq_some_iff.mp set with above | ⟨unset, kept⟩
  · rw [above, Option.some_or]
  · rw [unset, Option.none_or, satisfied key value kept]

/-- Targets are satisfied after effects exactly when the effects do not conflict with them and the
state satisfies what the effects leave of them. -/
theorem apply_satisfies_iff :
    (state.apply effects).satisfies targets = true ↔
      effects.conflictsWith targets = false ∧
        state.satisfies (targets.unsatisfiedBy effects) = true := by
  simp only [conflictsWith_eq_false_iff, satisfies_iff, get?_apply, get?_unsatisfiedBy_eq_some]
  constructor
  · intro all
    refine ⟨fun key x y set wanted => ?_, fun key value ⟨wanted, left⟩ => ?_⟩
    · have reached := all key y wanted
      rw [set, Option.some_or] at reached
      exact (Option.some.inj reached).symm
    · rcases Option.or_eq_some_iff.mp (all key value wanted) with set | ⟨-, kept⟩
      · exact absurd set left
      · exact kept
  · intro split key value wanted
    obtain ⟨agree, rest⟩ := split
    -- What the effects set agrees with the target; what they leave alone held before.
    cases set : effects.get? key with
    | none => rw [Option.none_or, rest key value ⟨wanted, by simp [set]⟩]
    | some x => rw [Option.some_or, agree key x value set wanted]

end ActionPlanning.Conditions
