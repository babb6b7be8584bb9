import ActionPlanning.Conditions.Lemmas
import ActionPlanning.Proofs.Search.Cheapest
import Mathlib.Data.Finset.Powerset

/-!
# Counting sets of conditions

Whatever a search comes across is made of conditions that stood somewhere in its input. A set of
conditions is determined by its entries, so there are at most as many such sets as there are
subsets of the conditions in the input. So a search whose moves take conditions from nowhere else
is right about the number of its keys.

## Main results

* `Conditions.length_le_two_pow`: at most this many distinct sets are made of some conditions.
* `Search.Problem.bounded_of_inside`: moves that stay inside a pool of conditions lead to no more
  keys than that.
-/

namespace ActionPlanning

namespace Conditions

/-- Sets of the same entries are equal. -/
theorem eq_of_toFinset_eq {a b : Conditions} (same : a.entries.toFinset = b.entries.toFinset) :
    a = b := by
  refine ext (eq_of_mem_iff a.ascending b.ascending fun e => ?_)
  rw [← List.mem_toFinset, same, List.mem_toFinset]

/-- At most this many distinct sets are made of the conditions in a pool. -/
theorem length_le_two_pow (pool : List Condition) {keys : List Conditions}
    (distinct : keys.Nodup) (inside : ∀ key ∈ keys, key.entries ⊆ pool) :
    keys.length ≤ 2 ^ pool.length := by
  have within : (keys.map fun key => key.entries.toFinset).toFinset ⊆ pool.toFinset.powerset := by
    intro entries listed
    obtain ⟨key, member, rfl⟩ := List.mem_map.mp (List.mem_toFinset.mp listed)
    exact Finset.mem_powerset.mpr fun e entry =>
      List.mem_toFinset.mpr (inside key member (List.mem_toFinset.mp entry))
  have apart : (keys.map fun key => key.entries.toFinset).Nodup :=
    distinct.map fun _ _ => eq_of_toFinset_eq
  calc keys.length = (keys.map fun key => key.entries.toFinset).toFinset.card := by
        rw [List.toFinset_card_of_nodup apart, List.length_map]
    _ ≤ pool.toFinset.powerset.card := Finset.card_le_card within
    _ = 2 ^ pool.toFinset.card := Finset.card_powerset _
    _ ≤ 2 ^ pool.length := Nat.pow_le_pow_right Nat.two_pos pool.toFinset_card_le

variable {a b : Conditions} {pool : List Condition}

theorem entries_apply_subset (left : a.entries ⊆ pool) (right : b.entries ⊆ pool) :
    (a.apply b).entries ⊆ pool := by
  rintro ⟨key, value⟩ member
  rw [← get?_eq_some_iff, get?_apply] at member
  rcases Option.or_eq_some_iff.mp member with set | ⟨-, kept⟩
  · exact right (get?_eq_some_iff.mp set)
  · exact left (get?_eq_some_iff.mp kept)

theorem entries_unsatisfiedBy_subset (left : a.entries ⊆ pool) :
    (a.unsatisfiedBy b).entries ⊆ pool :=
  fun _ member => left (List.mem_filter.mp member).1

end Conditions

namespace Search.Problem

variable {σ α ε : Type} [Zero α] [Add α] {problem : Problem Conditions σ α ε}

/-- A search whose moves stay inside a pool of conditions comes to no more keys than there are
subsets of the pool. -/
theorem bounded_of_inside (pool : List Condition) (start : problem.start.entries ⊆ pool)
    (stays : ∀ key, key.entries ⊆ pool → ∀ move ∈ problem.moves key, move.key.entries ⊆ pool)
    (enough : 2 ^ pool.length ≤ problem.keyBound) : problem.Bounded := by
  intro keys distinct reached
  refine Nat.le_trans (Conditions.length_le_two_pow pool distinct fun key listed => ?_) enough
  obtain ⟨steps, cost, walk⟩ := reached key listed
  -- The key is no longer one of the list when the walk to it is taken apart.
  clear listed
  induction walk with
  | stay => exact start
  | step _ member inside => exact stays _ inside _ member

end Search.Problem

end ActionPlanning
