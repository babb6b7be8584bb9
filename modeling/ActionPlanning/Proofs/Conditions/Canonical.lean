import ActionPlanning.Conditions.Lemmas
import Mathlib.Data.Set.Card

/-!
# Sets of conditions are canonical

There are many ways to make a set of conditions: setting and unsetting keys one by one, collecting
pairs, overlaying effects, keeping the targets that do not hold. However a set was made, all that
it shows is what was written last to each key. It lists each key that was set and not unset again
once, and the keys in the order of their code points.

So two sets that agree on every key are the same set. They compare as equal and read the same,
whatever ways they were made in. Two sets that differ on some key are not equal, and one of them
comes before the other.

## Main definitions

* `Conditions.Recipe`, `Recipe.make`: a way to make a set, and the set.
* `Recipe.lastWrite`: what is written last to a key.
* `Recipe.ShowsLastWrites`: a set shows what was written last, and nothing else.
* `Alike`, `Apart`: two sets that cannot be told apart, and two of which one comes first.

## Main results

* `Recipe.get?_make`: a key has the value that was written last.
* `Recipe.showsLastWrites`: so the whole set shows what was written last.
* `canonical_however_made`: sets are canonical.
-/

namespace ActionPlanning

/-- The code points of a text. -/
def codePoints (text : String) : List Nat := text.toList.map Char.toNat

/-- Texts are ordered by their code points. -/
theorem codePoints_lt {a b : String} (less : a < b) : codePoints a < codePoints b := by
  apply List.map_lt
  · intro x y less
    exact less
  · exact less

namespace Conditions

variable {a b : Conditions}

/-! ## Two sets -/

/-- Sets that cannot be told apart: they are equal, compare as equal and read the same. -/
structure Alike (a b : Conditions) : Prop where
  eq : a = b
  compare_eq : compare a b = .eq
  describe_eq : a.describe = b.describe

/-- Sets that are not equal, and of which one comes before the other, whichever is asked first. -/
structure Apart (a b : Conditions) : Prop where
  ne : a ≠ b
  oneWay : compare a b = .lt ∧ compare b a = .gt ∨ compare a b = .gt ∧ compare b a = .lt

/-- Sets that agree on every key cannot be told apart. -/
theorem alike_of_get? (agree : ∀ key, a.get? key = b.get? key) : Alike a b := by
  have same : a = b := ext_get? agree
  subst same
  exact ⟨rfl, Std.ReflCmp.compare_self, rfl⟩

/-- Sets that differ are not equal in their order either. -/
theorem apart_of_ne (differ : a ≠ b) : Apart a b := by
  have swapped : compare b a = (compare a b).swap := Std.OrientedCmp.eq_swap
  refine ⟨differ, ?_⟩
  rw [swapped]
  cases order : compare a b with
  | lt => exact .inl ⟨rfl, rfl⟩
  | eq => exact absurd (Std.LawfulEqCmp.eq_of_compare order) differ
  | gt => exact .inr ⟨rfl, rfl⟩

theorem nodup_keys (c : Conditions) : c.keys.Nodup := by
  apply c.ascending_keys.imp
  intro key other less same
  exact String.lt_irrefl other (same ▸ less)

/-! ## Ways to make a set -/

/-- A way to make a set of conditions from nothing. Wherever an operation takes another set, that
one may have been made in any way too. -/
inductive Recipe where
  | empty
  | ofList (pairs : List Condition)
  | set (base : Recipe) (key : String) (value : Condition.Value)
  | erase (base : Recipe) (key : String)
  | apply (base effects : Recipe)
  | unsatisfiedBy (targets state : Recipe)
  deriving Repr

namespace Recipe

/-- The set that is made. -/
def make : Recipe → Conditions
  | empty => ∅
  | ofList pairs => Conditions.ofList pairs
  | set base key value => base.make.set key value
  | erase base key => base.make.erase key
  | apply base effects => base.make.apply effects.make
  | unsatisfiedBy targets state => targets.make.unsatisfiedBy state.make

/-- What is written last to a key; none if it was never set, or is unset in the end. Effects write
the values that they have. A target that the state has as well is unset. -/
def lastWrite : Recipe → String → Option Condition.Value
  | empty, _ => none
  | ofList pairs, key => (pairs.reverse.find? fun e => e.key = key).map Condition.value
  | set base written value, key => if key = written then some value else base.lastWrite key
  | erase base unset, key => if key = unset then none else base.lastWrite key
  | apply base effects, key => (effects.lastWrite key).or (base.lastWrite key)
  | unsatisfiedBy targets state, key =>
    if state.lastWrite key = targets.lastWrite key then none else targets.lastWrite key

/-- The set shows what was written last, and nothing else: its keys ascend by code point and none
is repeated, all ways to look a key up agree, and the keys that are set are counted. -/
structure ShowsLastWrites (recipe : Recipe) : Prop where
  ascending : (recipe.make.keys.map codePoints).Pairwise (· < ·)
  once : recipe.make.keys.Nodup
  listed : ∀ e, e ∈ recipe.make.entries ↔ recipe.lastWrite e.key = some e.value
  get?_eq : ∀ key, recipe.make.get? key = recipe.lastWrite key
  holds_iff : ∀ key value, recipe.make.holds key value = true ↔ recipe.lastWrite key = some value
  contains_iff : ∀ key, recipe.make.contains key = true ↔ (recipe.lastWrite key).isSome = true
  counted : {key | (recipe.lastWrite key).isSome = true}.encard = recipe.make.size

/-- A key has the value that was written last. -/
theorem get?_make (recipe : Recipe) (key : String) :
    recipe.make.get? key = recipe.lastWrite key := by
  -- Each way to make a set comes with what it does to a key.
  induction recipe with
  | empty => rfl
  | ofList pairs => exact get?_ofList pairs key
  | set base written value ih => rw [make, get?_set, ih, lastWrite]
  | erase base unset ih => rw [make, get?_erase, ih, lastWrite]
  | apply base effects ihBase ihEffects => rw [make, get?_apply, ihBase, ihEffects, lastWrite]
  | unsatisfiedBy targets state ihTargets ihState =>
    rw [make, get?_unsatisfiedBy, ihTargets, lastWrite]
    cases wanted : targets.lastWrite key with
    | none => simp
    | some value =>
      by_cases provided : state.lastWrite key = some value
      · simp [holds, ihState, provided]
      · simp [holds, ihState, provided]

theorem mem_keys_make_iff {recipe : Recipe} {key : String} :
    key ∈ recipe.make.keys ↔ (recipe.lastWrite key).isSome = true := by
  rw [mem_keys_iff, contains, get?_make]

theorem showsLastWrites (recipe : Recipe) : recipe.ShowsLastWrites where
  ascending := by
    rw [List.pairwise_map]
    exact recipe.make.ascending_keys.imp codePoints_lt
  once := recipe.make.nodup_keys
  listed e := by
    rw [← get?_make]
    exact get?_eq_some_iff.symm
  get?_eq := recipe.get?_make
  holds_iff key value := by rw [Conditions.holds_iff, get?_make]
  contains_iff key := by rw [contains, get?_make]
  counted := by
    have set : {key | (recipe.lastWrite key).isSome = true} = ↑recipe.make.keys.toFinset := by
      ext key
      simp [mem_keys_make_iff]
    rw [set, Set.encard_coe_eq_coe_finsetCard,
      List.toFinset_card_of_nodup recipe.make.nodup_keys, keys, List.length_map, size]

end Recipe

/-- Sets of conditions are canonical, however they were made. A set shows what was written last to
each key and nothing else. Two sets that agree on every key cannot be told apart; two that differ
on some key are not equal, and one of them comes before the other. -/
theorem canonical_however_made (first second : Recipe) :
    first.ShowsLastWrites ∧
      ((∀ key, first.make.get? key = second.make.get? key) ∧ Alike first.make second.make ∨
        (∃ key, first.make.get? key ≠ second.make.get? key) ∧ Apart first.make second.make) := by
  refine ⟨first.showsLastWrites, ?_⟩
  by_cases agree : ∀ key, first.make.get? key = second.make.get? key
  · exact .inl ⟨agree, alike_of_get? agree⟩
  · refine .inr ⟨not_forall.mp agree, apart_of_ne ?_⟩
    intro same
    apply agree
    intro key
    rw [same]

end Conditions

end ActionPlanning
