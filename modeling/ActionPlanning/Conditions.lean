import ActionPlanning.Condition

/-!
# Sets of conditions

A set of conditions has at most one value per key. It is kept as the list of its conditions in
strictly ascending key order, so each set has exactly one representation: two sets with the same
facts are equal, compare equal and print the same, however they were built.

States of the world, preconditions, effects and goals are all such sets. A state satisfies a set
of targets when each target holds in it; applying effects overlays them on a state; and one set
conflicts with another when some key has different values in the two.

## Main definitions

* `Conditions`: the set, kept as an ascending list of entries.
* `Conditions.get?`, `Conditions.set`, `Conditions.erase`: looking up and changing one key.
* `Conditions.satisfies`, `Conditions.conflictsWith`, `Conditions.overlaps`: comparing two sets.
* `Conditions.apply`, `Conditions.unsatisfiedBy`: overlaying effects, and what remains to be done.
-/

namespace ActionPlanning

/-- Conditions in strictly ascending key order. -/
def AscendingKeys (entries : List Condition) : Prop :=
  entries.Pairwise fun a b => a.key < b.key

/-- A set of conditions with at most one value per key. -/
structure Conditions where
  entries : List Condition
  ascending : AscendingKeys entries

namespace Conditions

@[ext] theorem ext {a b : Conditions} (same : a.entries = b.entries) : a = b := by
  cases a
  cases b
  cases same
  rfl

instance : DecidableEq Conditions := fun a b =>
  decidable_of_iff (a.entries = b.entries) ⟨ext, fun h => h ▸ rfl⟩

instance : Repr Conditions := ⟨fun c precedence => reprPrec c.entries precedence⟩

/-- The set without conditions. -/
def empty : Conditions := ⟨[], .nil⟩

instance : EmptyCollection Conditions := ⟨empty⟩

instance : Inhabited Conditions := ⟨empty⟩

/-- Puts a condition at its place in an ascending list; one with the same key is replaced. -/
def insertEntry (c : Condition) : List Condition → List Condition
  | [] => [c]
  | d :: rest =>
    if c.key < d.key then c :: d :: rest
    else if c.key = d.key then c :: rest
    else d :: insertEntry c rest

theorem mem_of_mem_insertEntry {c e : Condition} {entries : List Condition}
    (h : e ∈ insertEntry c entries) : e = c ∨ e ∈ entries := by
  induction entries with
  | nil => simpa [insertEntry] using h
  | cons d rest ih =>
    simp only [insertEntry] at h
    split at h
    · simpa using h
    · split at h
      · rcases List.mem_cons.mp h with rfl | h
        · exact .inl rfl
        · exact .inr (List.mem_cons_of_mem _ h)
      · rcases List.mem_cons.mp h with rfl | h
        · exact .inr List.mem_cons_self
        · rcases ih h with h | h
          · exact .inl h
          · exact .inr (List.mem_cons_of_mem _ h)

theorem ascending_insertEntry {c : Condition} {entries : List Condition}
    (ascending : AscendingKeys entries) : AscendingKeys (insertEntry c entries) := by
  induction entries with
  | nil => exact List.pairwise_singleton _ _
  | cons d rest ih =>
    obtain ⟨below, tail⟩ := List.pairwise_cons.mp ascending
    simp only [insertEntry]
    split
    case isTrue less =>
      refine List.pairwise_cons.mpr ⟨fun e he => ?_, ascending⟩
      rcases List.mem_cons.mp he with rfl | he
      · exact less
      · exact String.lt_trans less (below e he)
    case isFalse notLess =>
      split
      case isTrue same =>
        exact List.pairwise_cons.mpr ⟨fun e he => same ▸ below e he, tail⟩
      case isFalse other =>
        refine List.pairwise_cons.mpr ⟨fun e he => ?_, ih tail⟩
        rcases mem_of_mem_insertEntry he with rfl | he
        · rcases Std.lt_trichotomy e.key d.key with h | h | h
          · exact absurd h notLess
          · exact absurd h other
          · exact h
        · exact below e he

/-- Sets a key to a value, replacing the value it had. -/
def set (c : Conditions) (key : String) (value : Condition.Value) : Conditions :=
  ⟨insertEntry ⟨key, value⟩ c.entries, ascending_insertEntry c.ascending⟩

/-- The conditions that pass a test. -/
def filter (c : Conditions) (keep : Condition → Bool) : Conditions :=
  ⟨c.entries.filter keep, c.ascending.filter keep⟩

/-- Unsets a key. -/
def erase (c : Conditions) (key : String) : Conditions :=
  c.filter fun e => e.key ≠ key

/-- The value of a key, if it is set. -/
def get? (c : Conditions) (key : String) : Option Condition.Value :=
  (c.entries.find? fun e => e.key = key).map Condition.value

/-- Whether a key is set to anything. -/
def contains (c : Conditions) (key : String) : Bool := (c.get? key).isSome

/-- Whether a key is set to exactly this value. -/
def holds (c : Conditions) (key : String) (value : Condition.Value) : Bool :=
  c.get? key = some value

/-- The set of conditions in a list; of two with the same key the later one counts. -/
def ofList (entries : List Condition) : Conditions :=
  entries.foldl (fun c e => c.set e.key e.value) empty

/-- The keys, in ascending order. -/
def keys (c : Conditions) : List String := c.entries.map Condition.key

/-- The number of keys that are set. -/
def size (c : Conditions) : Nat := c.entries.length

/-- Whether no key is set. -/
def isEmpty (c : Conditions) : Bool := c.entries.isEmpty

/-- Whether every target holds. Unset keys satisfy no target; no targets are always satisfied. -/
def satisfies (c targets : Conditions) : Bool :=
  targets.entries.all fun e => c.holds e.key e.value

/-- The state after effects: each effect replaces what its key had before. -/
def apply (c effects : Conditions) : Conditions :=
  effects.entries.foldl (fun state e => state.set e.key e.value) c

/-- Those of the targets `c` that do not hold in a state. -/
def unsatisfiedBy (c state : Conditions) : Conditions :=
  c.filter fun e => !state.holds e.key e.value

/-- Whether some key is set in both sets, to different values. -/
def conflictsWith (c other : Conditions) : Bool :=
  c.entries.any fun e => (other.get? e.key).any (· ≠ e.value)

/-- Whether some condition belongs to both sets. -/
def overlaps (c other : Conditions) : Bool :=
  c.entries.any fun e => other.holds e.key e.value

/-- A set reads `{key: value, key: value}`, in ascending key order. -/
def describe (c : Conditions) : String :=
  "\x7b" ++ String.intercalate ", " (c.entries.map Condition.describe) ++ "\x7d"

/-- Sets are ordered as the lists of their conditions: the first difference decides, and a set
comes before one that continues it. -/
instance : Ord Conditions := ⟨compareOn entries⟩

instance : Std.TransOrd Conditions :=
  inferInstanceAs (Std.TransCmp (compareOn entries))

instance : Std.LawfulEqOrd Conditions where
  eq_of_compare {a b} h := by
    have entries : compare a.entries b.entries = .eq := h
    exact ext (Std.LawfulEqCmp.eq_of_compare entries)

end Conditions

end ActionPlanning
