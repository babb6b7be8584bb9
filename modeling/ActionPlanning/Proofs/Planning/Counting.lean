import ActionPlanning.Proofs.Planning.Forward
import ActionPlanning.Proofs.Planning.Regression
import Mathlib.Algebra.Order.Monoid.WithTop

/-!
# Counting what does not hold

The number of conditions that do not hold is an estimate of what is left to do. An action with one
effect makes at most one condition hold, so where every action has at most one effect and costs at
least what is expected for one condition, the cost so far with the estimate added never falls: the
estimates are consistent, and both searches find plans that are as cheap as without estimates. This
holds of regression too, where more may be required before an action than behind it.

## Main results

* `Conditions.size_unsatisfiedBy_le_apply`, `Action.size_unsatisfiedBy_le_regress?`: how the count
  changes in one move of either search.
* `Problem.consistent_of_count`: when counting is consistent.
* `counting_keeps_cheapest`: the cost of what both searches find.
-/

namespace ActionPlanning

namespace Conditions

variable {a b c : Conditions}

theorem nodup_entries (c : Conditions) : c.entries.Nodup := by
  refine c.ascending.imp fun {first second} less same => ?_
  exact String.lt_irrefl second.key (same ▸ less)

/-- A set whose conditions all stand in one of two others is no larger than both together. -/
theorem size_le_add (within : ∀ e ∈ a.entries, e ∈ b.entries ∨ e ∈ c.entries) :
    a.size ≤ b.size + c.size := by
  have subset : a.entries ⊆ b.entries ++ c.entries :=
    fun e member => List.mem_append.mpr (within e member)
  calc a.size ≤ (b.entries ++ c.entries).length :=
        (List.subperm_of_subset a.nodup_entries subset).length_le
    _ = b.size + c.size := List.length_append

/-- Where the targets are satisfied, none is left to count. -/
theorem size_unsatisfiedBy_eq_zero {targets state : Conditions}
    (satisfied : state.satisfies targets = true) : (targets.unsatisfiedBy state).size = 0 := by
  refine List.length_eq_zero_iff.mpr (List.filter_eq_nil_iff.mpr fun e member => ?_)
  simpa using List.all_eq_true.mp satisfied e member

/-- Effects make no more targets hold than there are effects. -/
theorem size_unsatisfiedBy_le_apply (targets state effects : Conditions) :
    (targets.unsatisfiedBy state).size
      ≤ (targets.unsatisfiedBy (state.apply effects)).size + effects.size := by
  refine size_le_add fun ⟨key, value⟩ member => ?_
  simp only [← get?_eq_some_iff, get?_unsatisfiedBy_eq_some, get?_apply] at member ⊢
  obtain ⟨wanted, lacking⟩ := member
  by_cases set : effects.get? key = some value
  · exact .inr set
  · refine .inl ⟨wanted, fun holds => ?_⟩
    rcases Option.or_eq_some_iff.mp holds with brought | ⟨-, kept⟩
    · exact set brought
    · exact lacking kept

end Conditions

/-- Before an action no fewer conditions do not hold than behind it, up to the number of its
effects. -/
theorem Action.size_unsatisfiedBy_le_regress? {a : Action} {required before : Conditions}
    (regressed : a.regress? required = some before) (facts : Conditions) :
    (required.unsatisfiedBy facts).size
      ≤ (before.unsatisfiedBy facts).size + a.effects.size := by
  obtain ⟨-, agree, rfl⟩ := Action.regress?_eq_some_iff.mp regressed
  refine Conditions.size_le_add fun ⟨key, value⟩ member => ?_
  simp only [← Conditions.get?_eq_some_iff, Conditions.get?_unsatisfiedBy_eq_some,
    Conditions.get?_apply] at member ⊢
  obtain ⟨wanted, lacking⟩ := member
  by_cases set : a.effects.get? key = some value
  · exact .inr set
  · refine .inl ⟨?_, lacking⟩
    -- What the action leaves open is still required before it, by whichever set comes first.
    have left := Conditions.get?_unsatisfiedBy_eq_some.mpr ⟨wanted, set⟩
    cases asked : a.preconditions.get? key with
    | none => rw [Option.none_or, left]
    | some x =>
      rw [Option.some_or, Conditions.conflictsWith_eq_false_iff.mp agree key x value asked left]

namespace Search

section

variable {α : Type} [AddCommMonoid α] [LinearOrder α] [IsOrderedAddMonoid α] {weight : α}

/-- Counting is consistent if every move pays for what it takes off the count, and where the search
may end there is nothing left to count. -/
theorem Problem.consistent_of_count {κ σ : Type} {problem : Problem κ σ α α} (count : κ → Nat)
    (counts : ∀ key, problem.estimate key = count key • weight) (nonneg : 0 ≤ weight)
    (finite : ∀ n : ℕ, AddLECancellable (n • weight))
    (pays : ∀ {key move}, move ∈ problem.moves key →
      ∃ n, count key ≤ count move.key + n ∧ n • weight ≤ move.cost)
    (ends : ∀ {key}, problem.isGoal key = true → count key = 0) : problem.Consistent where
  nonneg key := counts key ▸ nsmul_nonneg nonneg _
  rises {key move} member cost _ := by
    obtain ⟨n, drops, paid⟩ := pays member
    rw [counts, counts]
    calc cost + count key • weight
        ≤ cost + (count move.key + n) • weight := by gcongr
      _ = cost + n • weight + count move.key • weight := by
        rw [add_nsmul, add_assoc, add_comm (n • weight)]
      _ ≤ cost + move.cost + count move.key • weight := by gcongr
  cancels {key a b} _ _ le := by
    rw [counts, add_comm a, add_comm b] at le
    exact finite _ le
  ends {key} goal cost _ := by rw [counts, ends goal, zero_nsmul, add_zero]

variable {price : Action → α} {actions : List Action}

/-- Counting is consistent in regression search if every action pays for each of its effects. -/
theorem Regression.consistent_unsatisfiedCount (nonneg : 0 ≤ weight)
    (finite : ∀ n : ℕ, AddLECancellable (n • weight))
    (pays : ∀ a ∈ actions, a.effects.size • weight ≤ price a) (wanted facts : Conditions) :
    (problem (priced price actions) wanted facts (.unsatisfiedCount weight)).Consistent := by
  refine Problem.consistent_of_count (fun required => (required.unsatisfiedBy facts).size)
    (fun _ => rfl) nonneg finite (fun {required move} member => ?_)
    Conditions.size_unsatisfiedBy_eq_zero
  obtain ⟨p, tried, -, before, regressed, rfl⟩ := mem_moves.mp member
  obtain ⟨listed, cost⟩ := mem_priced.mp tried
  exact ⟨p.action.effects.size, Action.size_unsatisfiedBy_le_regress? regressed facts,
    cost ▸ pays p.action listed⟩

/-- Counting is consistent in forward search if every action pays for each of its effects. -/
theorem Forward.consistent_unsatisfiedCount (nonneg : 0 ≤ weight)
    (finite : ∀ n : ℕ, AddLECancellable (n • weight))
    (pays : ∀ a ∈ actions, a.effects.size • weight ≤ price a) (wanted facts : Conditions) :
    (problem (priced price actions) wanted facts (.unsatisfiedCount weight)).Consistent := by
  refine Problem.consistent_of_count (fun imagined => (wanted.unsatisfiedBy imagined).size)
    (fun _ => rfl) nonneg finite (fun {imagined move} member => ?_)
    Conditions.size_unsatisfiedBy_eq_zero
  obtain ⟨p, tried, -, rfl⟩ := mem_moves.mp member
  obtain ⟨listed, cost⟩ := mem_priced.mp tried
  exact ⟨p.action.effects.size, Conditions.size_unsatisfiedBy_le_apply wanted imagined _,
    cost ▸ pays p.action listed⟩

end

/-- Where every action has at most one effect and costs at least what is expected for a condition
that does not hold, both searches find a plan by counting such conditions exactly if they find one
without estimates, and it costs the same. Costs and weight are exact numbers here; some actions may
cost more than any number. -/
theorem counting_keeps_cheapest {β : Type} [AddCommMonoid β] [LinearOrder β]
    [IsOrderedCancelAddMonoid β] {weight : β} (nonneg : 0 ≤ weight) {actions : List Action}
    {price : Action → WithTop β} (single : ∀ a ∈ actions, a.effects.size ≤ 1)
    (dear : ∀ a ∈ actions, weight ≤ price a) (goal : Goal) (state : WorldState) :
    (regression.find? (.unsatisfiedCount (weight : WithTop β)) none price actions
          goal.preconditions state.facts).map Prod.snd
        = (regression.find? .zero none price actions goal.preconditions state.facts).map Prod.snd ∧
      (forward.find? (.unsatisfiedCount (weight : WithTop β)) none price actions
          goal.preconditions state.facts).map Prod.snd
        = (forward.find? .zero none price actions goal.preconditions state.facts).map Prod.snd := by
  have nonnegWeight : 0 ≤ (weight : WithTop β) := WithTop.coe_nonneg.mpr nonneg
  have nonnegPrices (a : Action) (listed : a ∈ actions) : 0 ≤ price a :=
    nonnegWeight.trans (dear a listed)
  have finite (n : ℕ) : AddLECancellable (n • (weight : WithTop β)) := by
    rw [← WithTop.coe_nsmul]
    exact WithTop.addLECancellable_coe _
  have pays (a : Action) (listed : a ∈ actions) :
      a.effects.size • (weight : WithTop β) ≤ price a :=
    calc a.effects.size • (weight : WithTop β)
        ≤ 1 • (weight : WithTop β) := nsmul_le_nsmul_left nonnegWeight (single a listed)
      _ = weight := one_nsmul _
      _ ≤ price a := dear a listed
  constructor
  · have counting := Regression.cheapest_of_consistent nonnegPrices
      (Regression.consistent_unsatisfiedCount nonnegWeight finite pays goal.preconditions
        state.facts)
    exact counting.map_cost_unique (Regression.cheapest nonnegPrices) fun _ _ => le_antisymm
  · have counting := Forward.cheapest_of_consistent nonnegPrices
      (Forward.consistent_unsatisfiedCount nonnegWeight finite pays goal.preconditions state.facts)
    exact counting.map_cost_unique (Forward.cheapest nonnegPrices) fun _ _ => le_antisymm

open LockedDoor in
/-- Fetching the key and opening the door have one effect each, and may cost one each. By counting,
both searches find a plan that costs the same as the one they find without estimates. -/
theorem counting_keeps_cheapest_lockedDoor :
    (∃ counted found cost,
      regression.find? (.unsatisfiedCount ((1 : ℕ) : WithTop ℕ)) none (fun _ => 1)
          [fetchKey, openDoor] enter.preconditions outside.facts = some (counted, cost) ∧
        regression.find? .zero none (fun _ => (1 : WithTop ℕ)) [fetchKey, openDoor]
          enter.preconditions outside.facts = some (found, cost)) ∧
    ∃ counted found cost,
      forward.find? (.unsatisfiedCount ((1 : ℕ) : WithTop ℕ)) none (fun _ => 1)
          [fetchKey, openDoor] enter.preconditions outside.facts = some (counted, cost) ∧
        forward.find? .zero none (fun _ => (1 : WithTop ℕ)) [fetchKey, openDoor]
          enter.preconditions outside.facts = some (found, cost) := by
  have single : ∀ a ∈ [fetchKey, openDoor], a.effects.size ≤ 1 := by decide +kernel
  have nonneg (a : Action) (_ : a ∈ [fetchKey, openDoor]) : (0 : WithTop ℕ) ≤ 1 := zero_le_one
  have listed : [fetchKey, openDoor] ⊆ [fetchKey, openDoor] := List.Subset.refl _
  have dear (a : Action) (_ : a ∈ [fetchKey, openDoor]) : ((1 : ℕ) : WithTop ℕ) ≤ 1 := le_rfl
  obtain ⟨backwards, forwards⟩ :=
    counting_keeps_cheapest (Nat.zero_le 1) single dear enter outside
  obtain ⟨chain, c, foundChain, -⟩ :=
    (Regression.cheapest nonneg).exists_answer ⟨listed, completeChain_enter⟩
  obtain ⟨run, d, foundRun, -⟩ := (Forward.cheapest nonneg).exists_answer ⟨listed, reaches_enter⟩
  constructor
  · obtain ⟨⟨counted, _⟩, answer, rfl⟩ :=
      Option.map_eq_some_iff.mp (backwards.trans (congrArg (Option.map Prod.snd) foundChain))
    exact ⟨counted, chain, _, answer, foundChain⟩
  · obtain ⟨⟨counted, _⟩, answer, rfl⟩ :=
      Option.map_eq_some_iff.mp (forwards.trans (congrArg (Option.map Prod.snd) foundRun))
    exact ⟨counted, run, _, answer, foundRun⟩

end Search

end ActionPlanning
