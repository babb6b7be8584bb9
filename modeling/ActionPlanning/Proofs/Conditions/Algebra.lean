import ActionPlanning.Action
import ActionPlanning.Proofs.Conditions.Overlay

/-!
# The algebra of overlays

Overlaying one set of conditions on another is how effects change a state. It is associative, so
the effects of several actions may be overlaid on each other first and then applied all at once.
It is commutative for exactly those pairs of sets that do not conflict, which are also the pairs
that some state satisfies together; what satisfies such a pair is what satisfies the overlay.

Each operation is its own loop over the entries of a set. The laws are proved key by key, from what
each operation does to one key.

## Main definitions

* `Conditions.overlay`: several sets overlaid on each other, the last one on top.
* `WorldState.after`: the imagined state after several actions.

## Main results

* `conflictsWith_iff_not_satisfied`, `conflictsWith_iff_apply_ne`: what a conflict is.
* `apply_assoc`: overlaying is associative.
* `WorldState.facts_after`: several actions change a state as their overlaid effects do.
* `overlay_laws`: the laws of overlaying.
-/

namespace ActionPlanning

namespace Conditions

variable {a b facts : Conditions}

theorem conflictsWith_comm (a b : Conditions) : a.conflictsWith b = b.conflictsWith a := by
  have swap {a b : Conditions} (conflict : a.conflictsWith b = true) :
      b.conflictsWith a = true := by
    obtain ⟨key, x, y, setA, setB, differ⟩ := conflictsWith_iff.mp conflict
    exact conflictsWith_iff.mpr ⟨key, y, x, setB, setA, differ.symm⟩
  exact Bool.eq_iff_iff.mpr ⟨swap, swap⟩

/-- Sets conflict exactly if no state satisfies both. -/
theorem conflictsWith_iff_not_satisfied :
    a.conflictsWith b = true ↔
      ¬ ∃ facts : Conditions, facts.satisfies a = true ∧ facts.satisfies b = true := by
  constructor
  · intro conflict both
    obtain ⟨facts, first, second⟩ := both
    exact Bool.noConfusion (conflict.symm.trans (conflictsWith_eq_false_of_satisfies first second))
  · intro never
    cases agree : a.conflictsWith b with
    | true => rfl
    | false =>
      -- The overlay itself is a state that satisfies both.
      exact absurd ⟨b.apply a, (satisfies_apply_iff agree).mp (b.apply a).satisfies_self⟩ never

/-- Sets that do not conflict may be overlaid either way. -/
theorem apply_comm (agree : a.conflictsWith b = false) : a.apply b = b.apply a := by
  rw [conflictsWith_eq_false_iff] at agree
  refine ext_get? fun key => ?_
  rw [get?_apply, get?_apply]
  cases setA : a.get? key with
  | none => rw [Option.or_none, Option.none_or]
  | some x =>
    cases setB : b.get? key with
    | none => rw [Option.none_or, Option.or_none]
    | some y => rw [Option.some_or, Option.some_or, agree key x y setA setB]

/-- Sets conflict exactly if it matters which of them is overlaid on the other. -/
theorem conflictsWith_iff_apply_ne : a.conflictsWith b = true ↔ a.apply b ≠ b.apply a := by
  constructor
  · intro conflict same
    obtain ⟨key, x, y, setA, setB, differ⟩ := conflictsWith_iff.mp conflict
    have sameKey := congrArg (·.get? key) same
    -- The set that is overlaid decides the key.
    simp only [get?_apply, setA, setB, Option.some_or] at sameKey
    exact differ (Option.some.inj sameKey)
  · intro differ
    cases agree : a.conflictsWith b with
    | true => rfl
    | false => exact absurd (apply_comm agree) differ

/-- A state satisfies two sets exactly if they do not conflict and it satisfies their overlay. -/
theorem satisfies_and_iff :
    facts.satisfies a = true ∧ facts.satisfies b = true ↔
      a.conflictsWith b = false ∧ facts.satisfies (a.apply b) = true := by
  constructor
  · intro both
    have agree := conflictsWith_eq_false_of_satisfies both.1 both.2
    exact ⟨agree, (satisfies_apply_iff (conflictsWith_comm a b ▸ agree)).mpr both.symm⟩
  · intro split
    obtain ⟨agree, overlaid⟩ := split
    exact ((satisfies_apply_iff (conflictsWith_comm a b ▸ agree)).mp overlaid).symm

/-- Overlaying is associative. -/
theorem apply_assoc (a b c : Conditions) : (a.apply b).apply c = a.apply (b.apply c) :=
  ext_get? fun key => by simp only [get?_apply, Option.or_assoc]

/-- Several sets overlaid on each other, the last one on top. -/
def overlay (sets : List Conditions) : Conditions := sets.foldl apply ∅

/-- Sets that are overlaid one after the other may be overlaid on each other first. -/
theorem foldl_apply_eq (facts : Conditions) (sets : List Conditions) :
    sets.foldl apply facts = facts.apply (overlay sets) := by
  suffices gathered : ∀ sum : Conditions,
      sets.foldl apply (facts.apply sum) = facts.apply (sets.foldl apply sum) from
    gathered ∅
  induction sets with
  | nil => exact fun sum => rfl
  | cons first rest ih =>
    intro sum
    rw [List.foldl_cons, List.foldl_cons, apply_assoc, ih]

end Conditions

namespace WorldState

/-- The imagined state after several actions, whether or not they can be performed. -/
def after (state : WorldState) (actions : List Action) : WorldState :=
  actions.foldl (fun state a => a.applyTo state) state

/-- Several actions change a state as their overlaid effects do. -/
theorem facts_after (state : WorldState) (actions : List Action) :
    (state.after actions).facts
      = state.facts.apply (Conditions.overlay (actions.map Action.effects)) := by
  rw [← Conditions.foldl_apply_eq, List.foldl_map]
  induction actions generalizing state with
  | nil => rfl
  | cons a rest ih => exact ih (a.applyTo state)

end WorldState

namespace Conditions

/-- Sets conflict exactly if no state satisfies both, and exactly if it matters which of them is
overlaid on the other. A state satisfies two sets exactly if they do not conflict and it satisfies
their overlay. Overlaying is associative, and so several actions, run one by one, change a state as
their overlaid effects do. After effects a state satisfies targets exactly if the effects do not
conflict with them and it satisfied before what the effects leave of them. -/
theorem overlay_laws (a b c : Conditions) (state : WorldState) (actions : List Action) :
    (a.conflictsWith b = true ↔
      ¬ ∃ other : WorldState, other.facts.satisfies a = true ∧ other.facts.satisfies b = true) ∧
    (a.conflictsWith b = true ↔ a.apply b ≠ b.apply a) ∧
    (state.facts.satisfies a = true ∧ state.facts.satisfies b = true ↔
      a.conflictsWith b = false ∧ state.facts.satisfies (a.apply b) = true) ∧
    (a.apply b).apply c = a.apply (b.apply c) ∧
    (state.after actions).facts = state.facts.apply (overlay (actions.map Action.effects)) ∧
    ((state.facts.apply b).satisfies a = true ↔
      b.conflictsWith a = false ∧ state.facts.satisfies (a.unsatisfiedBy b) = true) := by
  refine ⟨conflictsWith_iff_not_satisfied.trans (not_congr ?_), conflictsWith_iff_apply_ne,
    satisfies_and_iff, apply_assoc a b c, state.facts_after actions, apply_satisfies_iff⟩
  -- Any set of conditions is the facts of some state.
  exact ⟨fun ⟨facts, both⟩ => ⟨⟨facts, default⟩, both⟩, fun ⟨other, both⟩ => ⟨other.facts, both⟩⟩

end Conditions

end ActionPlanning
