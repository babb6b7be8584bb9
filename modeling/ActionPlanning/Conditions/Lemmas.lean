import ActionPlanning.Conditions

/-!
# Conditions as partial functions

A set of conditions is determined by what `get?` says about each key. This file states for every
operation what it does to `get?`, so that later arguments need not look at lists of entries.

## Main results

* `ext_get?`: two sets that agree on every key are equal.
* `get?_set`, `get?_erase`, `get?_apply`, `get?_unsatisfiedBy`: what the operations do to a key.
* `satisfies_iff`, `conflictsWith_iff`, `overlaps_iff`: what the tests say, key by key.
-/

namespace ActionPlanning.Conditions

variable {a b c state targets effects : Conditions} {key other : String}
  {value : Condition.Value}

/-! ## Entries and keys -/

/-- In an ascending list the first entry of a key is its only one. -/
theorem find?_eq_some_iff {entries : List Condition} (ascending : AscendingKeys entries)
    {e : Condition} :
    entries.find? (fun d => decide (d.key = key)) = some e ↔ e ∈ entries ∧ e.key = key := by
  induction entries with
  | nil => simp
  | cons d rest ih =>
    obtain ⟨below, tail⟩ := List.pairwise_cons.mp ascending
    by_cases same : d.key = key
    · simp only [List.find?_cons, same, decide_true, Option.some.injEq, List.mem_cons]
      constructor
      · rintro rfl
        exact ⟨.inl rfl, same⟩
      · rintro ⟨rfl | member, named⟩
        · rfl
        · have less := below e member
          rw [same, named] at less
          exact absurd less (String.lt_irrefl key)
    · simp only [List.find?_cons, same, decide_false, ih tail, List.mem_cons]
      constructor
      · rintro ⟨member, named⟩
        exact ⟨.inr member, named⟩
      · rintro ⟨rfl | member, named⟩
        · exact absurd named same
        · exact ⟨member, named⟩

/-- A key has a value exactly when that entry is listed. -/
theorem get?_eq_some_iff : c.get? key = some value ↔ ⟨key, value⟩ ∈ c.entries := by
  simp only [get?, Option.map_eq_some_iff, find?_eq_some_iff c.ascending]
  constructor
  · rintro ⟨⟨k, v⟩, ⟨member, rfl⟩, rfl⟩
    exact member
  · intro member
    exact ⟨⟨key, value⟩, ⟨member, rfl⟩, rfl⟩

@[simp] theorem get?_empty : (∅ : Conditions).get? key = none := rfl

theorem contains_iff : c.contains key = true ↔ ∃ value, c.get? key = some value :=
  Option.isSome_iff_exists

@[simp] theorem holds_iff : c.holds key value = true ↔ c.get? key = some value :=
  decide_eq_true_iff

theorem ascending_keys (c : Conditions) : c.keys.Pairwise (· < ·) :=
  List.pairwise_map.mpr c.ascending

theorem mem_keys_iff : key ∈ c.keys ↔ c.contains key = true := by
  rw [contains_iff, keys, List.mem_map]
  constructor
  · rintro ⟨e, member, rfl⟩
    exact ⟨e.value, get?_eq_some_iff.mpr member⟩
  · rintro ⟨value, set⟩
    exact ⟨⟨key, value⟩, get?_eq_some_iff.mp set, rfl⟩

/-- Two ascending lists with the same entries are the same list. -/
theorem eq_of_mem_iff {xs ys : List Condition} (ascendingX : AscendingKeys xs)
    (ascendingY : AscendingKeys ys) (same : ∀ e, e ∈ xs ↔ e ∈ ys) : xs = ys := by
  induction xs generalizing ys with
  | nil =>
    cases ys with
    | nil => rfl
    | cons y rest => exact absurd ((same y).mpr List.mem_cons_self) List.not_mem_nil
  | cons x xs ih =>
    cases ys with
    | nil => exact absurd ((same x).mp List.mem_cons_self) List.not_mem_nil
    | cons y ys =>
      obtain ⟨belowX, tailX⟩ := List.pairwise_cons.mp ascendingX
      obtain ⟨belowY, tailY⟩ := List.pairwise_cons.mp ascendingY
      have heads : x = y := by
        rcases List.mem_cons.mp ((same x).mp List.mem_cons_self) with h | inY
        · exact h
        · rcases List.mem_cons.mp ((same y).mpr List.mem_cons_self) with h | inX
          · exact h.symm
          · exact absurd (String.lt_trans (belowY x inY) (belowX y inX)) (String.lt_irrefl y.key)
      subst heads
      -- The head is not repeated in either tail, so the tails have the same entries too.
      have fresh {zs : List Condition} (below : ∀ e ∈ zs, x.key < e.key) : x ∉ zs :=
        fun member => String.lt_irrefl x.key (below x member)
      rw [ih tailX tailY fun e => ?_]
      constructor
      · intro member
        rcases List.mem_cons.mp ((same e).mp (List.mem_cons_of_mem x member)) with rfl | h
        · exact absurd member (fresh belowX)
        · exact h
      · intro member
        rcases List.mem_cons.mp ((same e).mpr (List.mem_cons_of_mem x member)) with rfl | h
        · exact absurd member (fresh belowY)
        · exact h

/-- Sets that agree on every key are equal. -/
theorem ext_get? (agree : ∀ key, a.get? key = b.get? key) : a = b :=
  ext <| eq_of_mem_iff a.ascending b.ascending fun ⟨key, value⟩ => by
    rw [← get?_eq_some_iff, ← get?_eq_some_iff, agree key]

/-! ## Changing a set -/

theorem mem_insertEntry {d e : Condition} {entries : List Condition}
    (ascending : AscendingKeys entries) :
    e ∈ insertEntry d entries ↔ e = d ∨ (e ∈ entries ∧ e.key ≠ d.key) := by
  induction entries with
  | nil => simp [insertEntry]
  | cons first rest ih =>
    obtain ⟨below, tail⟩ := List.pairwise_cons.mp ascending
    simp only [insertEntry]
    split
    case isTrue less =>
      -- Every listed key comes after the new one.
      have apart : ∀ e ∈ first :: rest, e.key ≠ d.key := by
        intro e member same
        rcases List.mem_cons.mp member with rfl | member
        · exact String.lt_irrefl _ (same ▸ less)
        · exact String.lt_irrefl _ (same ▸ String.lt_trans less (below e member))
      rw [List.mem_cons]
      exact or_congr_right ⟨fun member => ⟨member, apart e member⟩, And.left⟩
    case isFalse =>
      split
      case isTrue same =>
        have apart : ∀ e ∈ rest, e.key ≠ d.key := fun e member equal =>
          String.lt_irrefl e.key (equal.trans same ▸ below e member)
        simp only [List.mem_cons]
        constructor
        · rintro (rfl | member)
          · exact .inl rfl
          · exact .inr ⟨.inr member, apart e member⟩
        · rintro (rfl | ⟨rfl | member, named⟩)
          · exact .inl rfl
          · exact absurd same.symm named
          · exact .inr member
      case isFalse other =>
        simp only [List.mem_cons, ih tail]
        constructor
        · rintro (rfl | rfl | ⟨member, named⟩)
          · exact .inr ⟨.inl rfl, fun same => other same.symm⟩
          · exact .inl rfl
          · exact .inr ⟨.inr member, named⟩
        · rintro (rfl | ⟨rfl | member, named⟩)
          · exact .inr (.inl rfl)
          · exact .inl rfl
          · exact .inr (.inr ⟨member, named⟩)

/-- Setting a key changes that key alone. -/
theorem get?_set :
    (c.set key value).get? other = if other = key then some value else c.get? other := by
  ext v
  rw [get?_eq_some_iff, set, mem_insertEntry c.ascending, ← get?_eq_some_iff]
  split <;> simp_all [eq_comm]

/-- A key of a filtered set keeps its value if the entry passes the test. -/
theorem get?_filter {keep : Condition → Bool} :
    (c.filter keep).get? key = (c.get? key).filter fun value => keep ⟨key, value⟩ := by
  ext v
  rw [get?_eq_some_iff, filter, List.mem_filter, ← get?_eq_some_iff, Option.filter_eq_some_iff]

/-- Unsetting a key changes that key alone. -/
theorem get?_erase : (c.erase key).get? other = if other = key then none else c.get? other := by
  rw [erase, get?_filter]
  by_cases same : other = key
  · simp [same]
  · simp only [same, ne_eq, not_false_eq_true, decide_true, if_false]
    cases c.get? other <;> rfl

/-- The entries of an ascending list, applied one after the other, decide every key they set. -/
theorem get?_foldl_set {entries : List Condition} (ascending : AscendingKeys entries) :
    (entries.foldl (fun state e => state.set e.key e.value) c).get? key
      = (((entries.find? fun e => decide (e.key = key)).map Condition.value).or (c.get? key)) := by
  induction entries generalizing c with
  | nil => rfl
  | cons e rest ih =>
    obtain ⟨below, tail⟩ := List.pairwise_cons.mp ascending
    rw [List.foldl_cons, ih tail, get?_set]
    by_cases same : e.key = key
    · have absent : rest.find? (fun d => decide (d.key = key)) = none := by
        rw [List.find?_eq_none]
        intro d member named
        have less := below d member
        rw [same, of_decide_eq_true named] at less
        exact String.lt_irrefl key less
      simp [same, absent]
    · simp [same, eq_comm (a := key)]

/-- Of several pairs with one key the last one counts. -/
theorem get?_ofList (pairs : List Condition) (key : String) :
    (ofList pairs).get? key
      = (pairs.reverse.find? fun e => decide (e.key = key)).map Condition.value := by
  suffices written : ∀ c : Conditions,
      (pairs.foldl (fun c e => c.set e.key e.value) c).get? key
        = ((pairs.reverse.find? fun e => decide (e.key = key)).map Condition.value).or
            (c.get? key) by
    exact (written ∅).trans (by simp)
  induction pairs with
  | nil =>
    intro c
    rfl
  | cons e rest ih =>
    intro c
    rw [List.foldl_cons, ih, get?_set, List.reverse_cons, List.find?_append]
    by_cases same : e.key = key
    · cases rest.reverse.find? fun e => decide (e.key = key) <;> simp [same]
    · simp [same, eq_comm (a := key)]

/-- Effects win over what a key had before. -/
theorem get?_apply : (c.apply effects).get? key = (effects.get? key).or (c.get? key) :=
  get?_foldl_set effects.ascending

/-- What is left of targets are those that do not hold. -/
theorem get?_unsatisfiedBy :
    (targets.unsatisfiedBy state).get? key
      = (targets.get? key).filter fun value => !state.holds key value :=
  get?_filter

/-! ## Testing a set -/

theorem forall_mem_entries_iff {holds : Condition → Prop} :
    (∀ e ∈ c.entries, holds e) ↔ ∀ key value, c.get? key = some value → holds ⟨key, value⟩ :=
  ⟨fun all _ _ set => all _ (get?_eq_some_iff.mp set),
    fun all e member => all e.key e.value (get?_eq_some_iff.mpr member)⟩

theorem exists_mem_entries_iff {holds : Condition → Prop} :
    (∃ e ∈ c.entries, holds e) ↔ ∃ key value, c.get? key = some value ∧ holds ⟨key, value⟩ :=
  ⟨fun ⟨e, member, h⟩ => ⟨e.key, e.value, get?_eq_some_iff.mpr member, h⟩,
    fun ⟨_, _, set, h⟩ => ⟨_, get?_eq_some_iff.mp set, h⟩⟩

/-- A state satisfies targets when it agrees with them wherever they are set. -/
theorem satisfies_iff :
    c.satisfies targets = true ↔ ∀ key value, targets.get? key = some value →
      c.get? key = some value := by
  rw [satisfies, List.all_eq_true, forall_mem_entries_iff]
  simp only [holds_iff]

/-- Sets conflict when some key has different values in the two. -/
theorem conflictsWith_iff :
    a.conflictsWith b = true ↔ ∃ key x y, a.get? key = some x ∧ b.get? key = some y ∧ y ≠ x := by
  rw [conflictsWith, List.any_eq_true, exists_mem_entries_iff]
  simp only [Option.any_eq_true, decide_eq_true_eq]
  constructor
  · rintro ⟨key, x, set, y, setOther, differ⟩
    exact ⟨key, x, y, set, setOther, differ⟩
  · rintro ⟨key, x, y, set, setOther, differ⟩
    exact ⟨key, x, set, y, setOther, differ⟩

/-- Sets overlap when some key has the same value in both. -/
theorem overlaps_iff :
    a.overlaps b = true ↔ ∃ key value, a.get? key = some value ∧ b.get? key = some value := by
  rw [overlaps, List.any_eq_true, exists_mem_entries_iff]
  simp only [holds_iff]

end ActionPlanning.Conditions
