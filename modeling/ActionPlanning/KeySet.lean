/-!
# Sets of keys

The condition keys a planning system may refer to form a set, kept as a strictly ascending list.
-/

namespace ActionPlanning

/-- A set of keys, in strictly ascending order. -/
structure KeySet where
  toList : List String
  ascending : toList.Pairwise (· < ·)

namespace KeySet

@[ext] theorem ext {a b : KeySet} (same : a.toList = b.toList) : a = b := by
  cases a
  cases b
  cases same
  rfl

instance : DecidableEq KeySet := fun a b =>
  decidable_of_iff (a.toList = b.toList) ⟨ext, fun h => h ▸ rfl⟩

instance : Repr KeySet := ⟨fun s precedence => reprPrec s.toList precedence⟩

/-- The set without keys. -/
def empty : KeySet := ⟨[], .nil⟩

instance : EmptyCollection KeySet := ⟨empty⟩

instance : Inhabited KeySet := ⟨empty⟩

/-- Puts a key at its place in an ascending list, once. -/
def insertKey (key : String) : List String → List String
  | [] => [key]
  | k :: rest =>
    if key < k then key :: k :: rest
    else if key = k then k :: rest
    else k :: insertKey key rest

theorem mem_insertKey {key k : String} {keys : List String} :
    k ∈ insertKey key keys ↔ k = key ∨ k ∈ keys := by
  induction keys with
  | nil => simp [insertKey]
  | cons head rest ih =>
    simp only [insertKey]
    split
    · simp
    · split
      case isTrue same => simp [same]
      case isFalse => simp only [List.mem_cons, ih]; grind

theorem ascending_insertKey {key : String} {keys : List String}
    (ascending : keys.Pairwise (· < ·)) : (insertKey key keys).Pairwise (· < ·) := by
  induction keys with
  | nil => exact List.pairwise_singleton _ _
  | cons head rest ih =>
    obtain ⟨below, tail⟩ := List.pairwise_cons.mp ascending
    simp only [insertKey]
    split
    case isTrue less =>
      refine List.pairwise_cons.mpr ⟨fun k hk => ?_, ascending⟩
      rcases List.mem_cons.mp hk with rfl | hk
      · exact less
      · exact String.lt_trans less (below k hk)
    case isFalse notLess =>
      split
      case isTrue => exact ascending
      case isFalse other =>
        refine List.pairwise_cons.mpr ⟨fun k hk => ?_, ih tail⟩
        rcases mem_insertKey.mp hk with rfl | hk
        · rcases Std.lt_trichotomy k head with h | h | h
          · exact absurd h notLess
          · exact absurd h other
          · exact h
        · exact below k hk

/-- Adds a key. -/
def insert (s : KeySet) (key : String) : KeySet :=
  ⟨insertKey key s.toList, ascending_insertKey s.ascending⟩

/-- The set of the keys in a list. -/
def ofList (keys : List String) : KeySet := keys.foldl insert empty

/-- Whether a key belongs to the set. -/
def contains (s : KeySet) (key : String) : Bool := s.toList.contains key

instance : Membership String KeySet := ⟨fun s key => key ∈ s.toList⟩

@[simp] theorem mem_toList {s : KeySet} {key : String} : key ∈ s.toList ↔ key ∈ s := Iff.rfl

@[simp] theorem contains_iff {s : KeySet} {key : String} : s.contains key = true ↔ key ∈ s :=
  List.contains_iff_mem

theorem mem_insert {s : KeySet} {key k : String} : k ∈ s.insert key ↔ k = key ∨ k ∈ s :=
  mem_insertKey

theorem mem_foldl_insert {keys : List String} {s : KeySet} {k : String} :
    k ∈ keys.foldl insert s ↔ k ∈ keys ∨ k ∈ s := by
  induction keys generalizing s with
  | nil => simp
  | cons key rest ih => simp only [List.foldl_cons, ih, mem_insert, List.mem_cons]; grind

theorem mem_ofList {keys : List String} {k : String} : k ∈ ofList keys ↔ k ∈ keys := by
  rw [ofList, mem_foldl_insert]
  exact or_iff_left List.not_mem_nil

end KeySet

end ActionPlanning
