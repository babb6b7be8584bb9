import ActionPlanning.Proofs.Search.Cost
import ActionPlanning.Search.Algorithm
import Mathlib.Algebra.BigOperators.Group.List.Basic

/-!
# Prices of actions and costs of sequences

A search prices every action once, in the state that is planned for, and adds the prices up in the
order in which it finds the actions: backwards from the last action, or forwards from the first.
With exact prices both are the sum; rounded, they may differ, but neither grows when actions are
left out.

## Main definitions

* `priced`: the actions with their prices, in the order in which they are tried.
* `costForward`, `costBackward`: the prices of a sequence, added up in either direction.

## Main results

* `pairwise_priced`: actions are tried in the order of their names.
* `priced_filter`: leaving actions out of a catalog keeps the order of the others.
* `costBackward_le_of_sublist`: leaving actions out does not raise the cost.
-/

namespace ActionPlanning.Search

variable {α : Type}

/-- The actions with their prices, in the order of their names. -/
def priced (price : Action → α) (actions : List Action) : List (Priced α) :=
  byName (actions.map fun a => ⟨a, price a⟩)

theorem mem_priced {price : Action → α} {actions : List Action} {p : Priced α} :
    p ∈ priced price actions ↔ p.action ∈ actions ∧ p.cost = price p.action := by
  rw [priced, byName, List.mem_mergeSort, List.mem_map]
  constructor
  · intro listed
    obtain ⟨a, member, rfl⟩ := listed
    exact ⟨member, rfl⟩
  · intro listed
    obtain ⟨member, same⟩ := listed
    exact ⟨p.action, member, by rw [← same]⟩

/-- In a stable sort the first element comes behind those that come strictly before it, and before
all others. -/
theorem mergeSort_cons_eq {β : Type} {le : β → β → Bool}
    (trans : ∀ a b c, le a b = true → le b c = true → le a c = true)
    (total : ∀ a b, (le a b || le b a) = true) (a : β) (rest : List β) :
    (a :: rest).mergeSort le
      = (rest.mergeSort le).filter (fun b => !le a b) ++
        a :: (rest.mergeSort le).filter fun b => le a b := by
  obtain ⟨before, behind, sorted, sortedRest, less⟩ := List.mergeSort_cons trans total a rest
  have ordered := List.pairwise_mergeSort trans total (a :: rest)
  rw [sorted] at ordered
  have more (b : β) (member : b ∈ behind) : le a b = true :=
    List.rel_of_pairwise_cons (List.pairwise_append.mp ordered).2.1 member
  have noneMore : before.filter (fun b => le a b) = [] :=
    List.filter_eq_nil_iff.mpr fun b member => by simpa using less b member
  have noneLess : behind.filter (fun b => !le a b) = [] :=
    List.filter_eq_nil_iff.mpr fun b member => by simp [more b member]
  rw [sorted, sortedRest, List.filter_append, List.filter_append, List.filter_eq_self.mpr less,
    List.filter_eq_self.mpr more, noneLess, noneMore, List.append_nil, List.nil_append]

/-- Sorting what is kept of a list keeps the same of the sorted list. -/
theorem mergeSort_filter {β : Type} {le : β → β → Bool}
    (trans : ∀ a b c, le a b = true → le b c = true → le a c = true)
    (total : ∀ a b, (le a b || le b a) = true) (keep : β → Bool) (l : List β) :
    (l.filter keep).mergeSort le = (l.mergeSort le).filter keep := by
  induction l with
  | nil => simp
  | cons a rest ih =>
    have swap (p : β → Bool) : ((rest.mergeSort le).filter keep).filter p
        = ((rest.mergeSort le).filter p).filter keep := by
      simp only [List.filter_filter, Bool.and_comm]
    by_cases kept : keep a = true
    · rw [List.filter_cons_of_pos kept, mergeSort_cons_eq trans total,
        mergeSort_cons_eq trans total, ih, swap, swap, List.filter_append,
        List.filter_cons_of_pos kept]
    · obtain ⟨before, behind, sorted, sortedRest, -⟩ := List.mergeSort_cons trans total a rest
      rw [List.filter_cons_of_neg kept, ih, sorted, sortedRest, List.filter_append,
        List.filter_append, List.filter_cons_of_neg kept]

/-- A stable sort keeps the order among elements that come before each other. -/
theorem pairwise_mergeSort_stable {β : Type} {le : β → β → Bool} {before : β → β → Prop}
    {l : List β} (trans : ∀ a b c, le a b = true → le b c = true → le a c = true)
    (total : ∀ a b, (le a b || le b a) = true) (ordered : l.Pairwise before) :
    (l.mergeSort le).Pairwise fun a b => le a b = true ∧ (le b a = true → before a b) := by
  refine List.pairwise_iff_forall_sublist.mpr fun {a b} sublist => ?_
  have sorted : le a b = true :=
    List.pairwise_iff_forall_sublist.mp (List.pairwise_mergeSort trans total l) sublist
  refine ⟨sorted, fun back => ?_⟩
  -- Sorting leaves those alone that tie with the first of the two.
  let tied (c : β) : Bool := le a c && le c a
  have tiedA : tied a = true := by simpa [tied] using total a a
  have tiedB : tied b = true := Bool.and_eq_true_iff.mpr ⟨sorted, back⟩
  have unsorted : (l.filter tied).mergeSort le = l.filter tied := by
    refine List.mergeSort_of_pairwise (List.pairwise_iff_forall_sublist.mpr fun {c d} pair => ?_)
    have tiedC := (List.mem_filter.mp (pair.subset List.mem_cons_self)).2
    have tiedD := (List.mem_filter.mp (pair.subset (List.mem_cons_of_mem _ List.mem_cons_self))).2
    exact trans c a d (Bool.and_eq_true_iff.mp tiedC).2 (Bool.and_eq_true_iff.mp tiedD).1
  have kept := sublist.filter tied
  rw [← mergeSort_filter trans total, unsorted, List.filter_cons_of_pos tiedA,
    List.filter_cons_of_pos tiedB] at kept
  exact List.pairwise_iff_forall_sublist.mp ordered (kept.trans List.filter_sublist)

theorem le_name_trans (a b c : Priced α) (first : decide (a.action.name ≤ b.action.name) = true)
    (second : decide (b.action.name ≤ c.action.name) = true) :
    decide (a.action.name ≤ c.action.name) = true :=
  decide_eq_true (String.le_trans (of_decide_eq_true first) (of_decide_eq_true second))

theorem le_name_total (a b : Priced α) :
    (decide (a.action.name ≤ b.action.name) || decide (b.action.name ≤ a.action.name)) = true := by
  simpa using String.le_total a.action.name b.action.name

/-- No action is tried before one of a lesser name. -/
theorem pairwise_priced (price : Action → α) (actions : List Action) :
    (priced price actions).Pairwise fun p q => p.action.name ≤ q.action.name :=
  (List.pairwise_mergeSort le_name_trans le_name_total _).imp of_decide_eq_true

/-- Leaving actions out of a catalog leaves them out of the actions that are tried, and keeps the
order of the others. -/
theorem priced_filter (price : Action → α) (keep : Action → Bool) (actions : List Action) :
    priced price (actions.filter keep) = (priced price actions).filter fun p => keep p.action := by
  rw [priced, priced, byName, byName, ← mergeSort_filter le_name_trans le_name_total,
    List.filter_map]
  rfl

theorem value_priceAll (actions : List Action) (state : WorldState) :
    (priceAll actions state).value = priced (·.costIn state) actions := by
  simp [priceAll, priced, Recorded.value_mapList, Action.price]

section

variable [Zero α] [Add α]

/-- The prices of actions, added from the first to the last. -/
def costForward (price : Action → α) (actions : List Action) : α :=
  actions.foldl (fun cost a => cost + price a) 0

/-- The prices of actions, added from the last to the first. -/
def costBackward (price : Action → α) (actions : List Action) : α :=
  actions.foldr (fun a cost => cost + price a) 0

variable {price : Action → α} {a : Action} {actions rest chain : List Action}

theorem costForward_concat :
    costForward price (rest ++ [a]) = costForward price rest + price a := by
  simp [costForward]

theorem costBackward_cons :
    costBackward price (a :: rest) = costBackward price rest + price a := rfl

theorem costBackward_reverse : costBackward price actions.reverse = costForward price actions :=
  List.foldr_reverse

variable [LE α] [LawfulCost α]

theorem costForward_nonneg (nonneg : ∀ a ∈ actions, 0 ≤ price a) :
    0 ≤ costForward price actions :=
  List.foldlRecOn (motive := fun cost => 0 ≤ cost) actions _ LawfulCost.zero_le_zero
    fun _ nonnegCost a member => LawfulCost.nonneg_add nonnegCost (nonneg a member)

theorem costBackward_nonneg (nonneg : ∀ a ∈ actions, 0 ≤ price a) :
    0 ≤ costBackward price actions := by
  induction actions with
  | nil => exact LawfulCost.zero_le_zero
  | cons a rest ih =>
    exact LawfulCost.nonneg_add (ih fun b member => nonneg b (List.mem_cons_of_mem _ member))
      (nonneg a List.mem_cons_self)

/-- Leaving actions out does not raise the cost. -/
theorem costBackward_le_of_sublist (sublist : chain.Sublist actions)
    (nonneg : ∀ a ∈ actions, 0 ≤ price a) :
    costBackward price chain ≤ costBackward price actions := by
  -- One action at a time is left out or kept; what comes behind it costs no more than before.
  induction sublist with
  | slnil => exact LawfulCost.zero_le_zero
  | @cons chain rest a sublist ih =>
    have nonnegRest (b : Action) (member : b ∈ rest) := nonneg b (List.mem_cons_of_mem _ member)
    have nonnegChain := costBackward_nonneg fun b member =>
      nonnegRest b (sublist.subset member)
    exact LawfulCost.le_trans nonnegChain (ih nonnegRest)
      (LawfulCost.le_add (costBackward_nonneg nonnegRest) (nonneg a List.mem_cons_self))
  | @cons_cons chain rest a sublist ih =>
    have nonnegRest (b : Action) (member : b ∈ rest) := nonneg b (List.mem_cons_of_mem _ member)
    have nonnegA := nonneg a List.mem_cons_self
    exact LawfulCost.add_le_add
      (costBackward_nonneg fun b member => nonnegRest b (sublist.subset member)) nonnegA
      (ih nonnegRest) (LawfulCost.le_rfl nonnegA)

end

/-! ## Exact prices -/

section

variable [AddCommMonoid α] {price : Action → α}

theorem costForward_eq_sum (actions : List Action) :
    costForward price actions = (actions.map price).sum := by
  rw [costForward, ← List.foldl_map (g := fun cost p => cost + p), List.sum_eq_foldl]

theorem costBackward_eq_sum (actions : List Action) :
    costBackward price actions = (actions.map price).sum := by
  induction actions with
  | nil => rfl
  | cons a rest ih => rw [costBackward_cons, ih, List.map_cons, List.sum_cons, add_comm]

end

end ActionPlanning.Search
