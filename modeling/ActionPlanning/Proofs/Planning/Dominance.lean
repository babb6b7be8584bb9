import ActionPlanning.Proofs.Planning.StoredCost
import Mathlib.Algebra.Order.Monoid.Unbundled.WithTop

/-!
# Dominated actions

Two entries of a catalog with the same preconditions and effects can stand in for each other in
every plan. A search answers only with entries that no such twin undercuts: at the cost that was
added up when the search came to the entry, no twin comes to less in all, and none that comes to no
more is tried before it. So of two twins of the same cost the one that is tried later is never
planned, and neither is one that costs more, as long as the difference is not lost when the costs
are added up. Added exactly, it is lost only in a plan of infinite cost.

## Main definitions

* `Action.Twin`: actions with the same preconditions and effects.
* `TriedBefore`: the order in which the entries of a catalog are tried.
* `Preferred`, `Undominated`: no twin is to be preferred to an entry on top of a cost.
* `Dominates`, `Justified`: the same of exact prices, on top of anything.

## Main results

* `preferred_of_trail`: the entries on a trail are preferred.
* `plans_undominated`: the plans of both searches contain no dominated entries.
* `infinite_plan_dominated`: a plan of infinite cost may.
-/

namespace ActionPlanning

/-- An action with the same preconditions and the same effects. -/
structure Action.Twin (a b : Action) : Prop where
  preconditions : a.preconditions = b.preconditions
  effects : a.effects = b.effects

namespace Search

variable {α κ ε : Type} {price : Action → α} {actions found steps : List Action} {a b : Action}

/-! ## Places in a catalog -/

/-- The entry at one place has the lesser name, or the same name and stands first. -/
def TriedBefore (actions : List Action) (i j : Fin actions.length) : Prop :=
  actions[i].name < actions[j].name ∨ actions[i].name = actions[j].name ∧ i < j

/-- The places of a catalog in the order in which a search tries them. -/
def inOrder (actions : List Action) : List (Fin actions.length) :=
  (List.finRange actions.length).mergeSort fun i j => actions[i].name ≤ actions[j].name

theorem TriedBefore.asymm {i j : Fin actions.length} (before : TriedBefore actions i j) :
    ¬ TriedBefore actions j i := by
  rintro (less | ⟨same, first⟩)
  · rcases before with less' | ⟨same, -⟩
    · exact String.lt_asymm less less'
    · exact String.lt_irrefl _ (same ▸ less)
  · rcases before with less | ⟨-, first'⟩
    · exact String.lt_irrefl _ (same ▸ less)
    · exact absurd first (Nat.lt_asymm first')

theorem mem_inOrder (i : Fin actions.length) : i ∈ inOrder actions :=
  List.mem_mergeSort.mpr (List.mem_finRange i)

theorem pairwise_inOrder : (inOrder actions).Pairwise (TriedBefore actions) := by
  refine (pairwise_mergeSort_stable (fun i j k ij jk => ?_) (fun i j => ?_)
    (List.pairwise_lt_finRange _)).imp fun {i j} ⟨le, first⟩ => ?_
  · exact decide_eq_true (String.le_trans (of_decide_eq_true ij) (of_decide_eq_true jk))
  · simpa using String.le_total actions[i].name actions[j].name
  · have le : actions[i].name ≤ actions[j].name := of_decide_eq_true le
    by_cases back : actions[j].name ≤ actions[i].name
    · exact .inr ⟨String.le_antisymm le back, first (decide_eq_true back)⟩
    · exact .inl (String.not_le.mp back)

/-- What is tried before an entry stands before it. -/
theorem mem_of_triedBefore {before after : List (Fin actions.length)} {i j : Fin actions.length}
    (order : inOrder actions = before ++ j :: after) (tried : TriedBefore actions i j) :
    i ∈ before := by
  obtain ⟨-, later, -⟩ := List.pairwise_append.mp (order ▸ pairwise_inOrder)
  rcases List.mem_append.mp (order ▸ mem_inOrder i) with early | late
  · exact early
  · rcases List.mem_cons.mp late with rfl | late
    · exact absurd tried tried.asymm
    · exact absurd tried (List.rel_of_pairwise_cons later late).asymm

theorem priced_eq_map_inOrder :
    priced price actions = (inOrder actions).map fun i => ⟨actions[i], price actions[i]⟩ := by
  have listed : actions.map (fun a => (⟨a, price a⟩ : Priced α))
      = (List.finRange actions.length).map fun i => ⟨actions[i], price actions[i]⟩ := by
    conv_lhs => rw [← List.map_get_finRange actions, List.map_map]
    rfl
  have sorted : (inOrder actions).map (fun i => (⟨actions[i], price actions[i]⟩ : Priced α))
      = byName ((List.finRange actions.length).map fun i => ⟨actions[i], price actions[i]⟩) :=
    List.map_mergeSort fun _ _ _ _ => rfl
  rw [priced, listed, sorted]

/-! ## Moves by entries -/

section

variable {next : Action → Option κ}

/-- The moves by the actions of a catalog, where `next` says which actions may be taken and where
they lead to. -/
def movesBy (next : Action → Option κ) (prices : List (Priced α)) : List (Move κ Action α) :=
  prices.filterMap fun p => (next p.action).map fun key => ⟨p.action, key, p.cost⟩

theorem movesBy_priced :
    movesBy next (priced price actions) = (inOrder actions).filterMap fun i =>
      (next actions[i]).map fun key => ⟨actions[i], key, price actions[i]⟩ := by
  rw [movesBy, priced_eq_map_inOrder, List.filterMap_map]
  rfl

variable [Add α] [LE α] {cost : α} {move : Move κ Action α}

/-- On top of a cost, the entry at the one place is to be preferred to its twin at the other: it
comes to less in all, or it comes to no more and is tried before. -/
def Undercuts (price : Action → α) (actions : List Action) (cost : α)
    (i j : Fin actions.length) : Prop :=
  actions[i].Twin actions[j] ∧
    (¬ cost + price actions[j] ≤ cost + price actions[i] ∨
      cost + price actions[i] ≤ cost + price actions[j] ∧ TriedBefore actions i j)

/-- An action is an entry of a catalog that, on top of a cost, no twin undercuts. -/
def Preferred (price : Action → α) (actions : List Action) (cost : α) (a : Action) : Prop :=
  ∃ j : Fin actions.length, actions[j] = a ∧ ∀ i, ¬ Undercuts price actions cost i j

/-- An action is an entry of a catalog that no twin dominates on top of a cost: none comes to less
in all, and none that costs no more is tried before. -/
def Undominated (price : Action → α) (actions : List Action) (cost : α) (a : Action) : Prop :=
  ∃ j : Fin actions.length, actions[j] = a ∧ ∀ i, actions[i].Twin actions[j] →
    cost + price actions[j] ≤ cost + price actions[i] ∧
      (price actions[i] ≤ price actions[j] → ¬ TriedBefore actions i j)

theorem Preferred.undominated [Zero α] [LawfulCost α]
    (preferred : Preferred price actions cost a) (nonneg : 0 ≤ cost)
    (nonnegPrices : ∀ a ∈ actions, 0 ≤ price a) : Undominated price actions cost a := by
  obtain ⟨j, rfl, best⟩ := preferred
  refine ⟨j, rfl, fun i twin => ⟨?_, fun le tried => best i ⟨twin, .inr ⟨?_, tried⟩⟩⟩⟩
  · by_contra less
    exact best i ⟨twin, .inl less⟩
  · exact LawfulCost.add_le_add nonneg (nonnegPrices _ (List.getElem_mem _))
      (LawfulCost.le_rfl nonneg) le

/-- A move that is picked is made by a preferred entry, at its price. -/
theorem preferred_of_picks (alike : ∀ {a b : Action}, a.Twin b → next a = next b)
    (picked : Picks (movesBy next (priced price actions)) cost move) :
    move.cost = price move.step ∧ Preferred price actions cost move.step := by
  obtain ⟨⟨ahead, behind, split, leads⟩, least⟩ := picked
  rw [movesBy_priced] at split least
  obtain ⟨before, others, order, rfl, rest⟩ := List.filterMap_eq_append_iff.mp split
  obtain ⟨unfit, j, after, rfl, none, made, -⟩ := List.filterMap_eq_cons_iff.mp rest
  obtain ⟨key, leadsTo, rfl⟩ := Option.map_eq_some_iff.mp made
  refine ⟨rfl, j, rfl, fun i ⟨twin, undercut⟩ => ?_⟩
  -- The twin leads to the same key.
  have made : (next actions[i]).map (fun key => (⟨actions[i], key, price actions[i]⟩ :
      Move κ Action α)) = some ⟨actions[i], key, price actions[i]⟩ := by
    rw [alike twin, leadsTo, Option.map_some]
  rcases undercut with less | ⟨le, tried⟩
  · exact less (least _ (List.mem_filterMap.mpr ⟨i, mem_inOrder i, made⟩) rfl)
  · rw [← List.append_assoc] at order
    rcases List.mem_append.mp (mem_of_triedBefore order tried) with early | skipped
    · exact leads _ (List.mem_filterMap.mpr ⟨i, early, made⟩) rfl le
    · exact nomatch (none i skipped).symm.trans made

/-- Where twins lead to the same keys, every action on a trail is preferred at the cost of those
taken before it. -/
theorem preferred_of_trail [Zero α] {problem : Problem κ Action α ε} {key : κ} {earlier : List κ}
    (after : κ → Action → Option κ)
    (moves : ∀ key, problem.moves key = movesBy (after key) (priced price actions))
    (alike : ∀ {key : κ} {a b : Action}, a.Twin b → after key a = after key b)
    (trail : problem.Trail key earlier steps cost) :
    cost = costBackward price steps ∧ ∀ later a rest, steps = later ++ a :: rest →
      Preferred price actions (costBackward price rest) a := by
  induction trail with
  | start => exact ⟨rfl, fun later a rest split => by simp at split⟩
  | step _ picked _ ih =>
    obtain ⟨rfl, preferred⟩ := ih
    rw [moves] at picked
    obtain ⟨paid, last⟩ := preferred_of_picks alike picked
    refine ⟨by rw [costBackward_cons, paid], fun later a rest split => ?_⟩
    rcases List.cons_eq_append_iff.mp split with ⟨rfl, same⟩ | ⟨later, rfl, split⟩
    · obtain ⟨rfl, rfl⟩ := List.cons.inj same
      exact last
    · exact preferred later a rest (List.cons.inj split).2

end

/-! ## What the searches find -/

/-- What is required before an action, if regression search takes it. -/
def Regression.requiredBefore? (facts required : Conditions) (a : Action) : Option Conditions :=
  if a.achievesAny (required.unsatisfiedBy facts) then a.regress? required else none

/-- What is imagined after an action, if forward search takes it. -/
def Forward.imaginedAfter? (imagined : Conditions) (a : Action) : Option Conditions :=
  if a.canPerform imagined then some (imagined.apply a.effects) else none

theorem Regression.moves_eq_movesBy (prices : List (Priced α)) (facts required : Conditions) :
    moves prices facts required = movesBy (requiredBefore? facts required) prices :=
  List.filterMap_congr fun p _ => by
    rw [requiredBefore?]
    split <;> rfl

theorem Forward.moves_eq_movesBy (prices : List (Priced α)) (imagined : Conditions) :
    moves prices imagined = movesBy (imaginedAfter? imagined) prices :=
  List.filterMap_congr fun p _ => by
    rw [imaginedAfter?]
    split <;> rfl

theorem Regression.requiredBefore?_congr {facts required : Conditions} (twin : a.Twin b) :
    requiredBefore? facts required a = requiredBefore? facts required b := by
  simp only [requiredBefore?, Action.achievesAny, Action.regress?, twin.preconditions, twin.effects]

theorem Forward.imaginedAfter?_congr {imagined : Conditions} (twin : a.Twin b) :
    imaginedAfter? imagined a = imaginedAfter? imagined b := by
  rw [imaginedAfter?, imaginedAfter?, Action.canPerform, Action.canPerform, twin.preconditions,
    twin.effects]

section

variable [Zero α] [Add α] [LE α] [DecidableLE α] [LawfulCost α] [HAdd α ε ε] [Priority ε]
  [LawfulPriority ε] {heuristic : Heuristic ε} {budget : Option Nat} {wanted facts : Conditions}
  {state : WorldState} {cost : α} {before rest : List Action}

/-- Every action that regression search finds is preferred at the cost of those behind it. -/
theorem Regression.preferred_of_find? (nonnegPrices : ∀ a ∈ actions, 0 ≤ price a)
    (answer : regression.find? heuristic budget price actions wanted facts = some (found, cost))
    (split : found = before ++ a :: rest) :
    Preferred price actions (costBackward price rest) a := by
  obtain ⟨required, earlier, trail⟩ := find?_trail nonnegPrices answer
  exact (preferred_of_trail (requiredBefore? facts) (moves_eq_movesBy _ facts)
    requiredBefore?_congr trail).2 _ _ _ split

/-- So no twin dominates it at that cost. -/
theorem Regression.undominated_of_find? (nonnegPrices : ∀ a ∈ actions, 0 ≤ price a)
    (answer : regression.find? heuristic budget price actions wanted facts = some (found, cost))
    (split : found = before ++ a :: rest) :
    Undominated price actions (costBackward price rest) a := by
  obtain ⟨listed, -⟩ := find?_sound answer
  have behind : rest ⊆ found :=
    split ▸ List.Subset.trans (List.subset_cons_self a rest) (List.subset_append_right before _)
  exact (preferred_of_find? nonnegPrices answer split).undominated
    (costBackward_nonneg fun b member => nonnegPrices b (listed (behind member))) nonnegPrices

/-- Every action that forward search finds is preferred at the cost of those before it. -/
theorem Forward.preferred_of_find? (nonnegPrices : ∀ a ∈ actions, 0 ≤ price a)
    (answer : forward.find? heuristic budget price actions wanted facts = some (found, cost))
    (split : found = before ++ a :: rest) :
    Preferred price actions (costForward price before) a := by
  obtain ⟨imagined, earlier, trail⟩ := find?_trail nonnegPrices answer
  have turned : found.reverse = rest.reverse ++ a :: before.reverse := by simp [split]
  rw [← costBackward_reverse]
  exact (preferred_of_trail imaginedAfter? (moves_eq_movesBy _) imaginedAfter?_congr trail).2
    _ _ _ turned

/-- So no twin dominates it at that cost. -/
theorem Forward.undominated_of_find? (nonnegPrices : ∀ a ∈ actions, 0 ≤ price a)
    (answer : forward.find? heuristic budget price actions wanted state.facts = some (found, cost))
    (split : found = before ++ a :: rest) :
    Undominated price actions (costForward price before) a := by
  obtain ⟨listed, -⟩ := find?_sound answer
  have ahead : before ⊆ found := split ▸ List.subset_append_left before _
  exact (preferred_of_find? nonnegPrices answer split).undominated
    (costForward_nonneg fun b member => nonnegPrices b (listed (ahead member))) nonnegPrices

end

/-! ## Exact prices -/

section

variable {β : Type} [AddCommMonoid β] [LinearOrder β] [IsOrderedCancelAddMonoid β]
  {price : Action → WithTop β} {cost : WithTop β}

/-- The entry at the one place is to be preferred to its twin at the other: it costs less, or it
costs the same and is tried before. -/
def Dominates (price : Action → WithTop β) (actions : List Action)
    (i j : Fin actions.length) : Prop :=
  actions[i].Twin actions[j] ∧
    (price actions[i] < price actions[j] ∨
      price actions[i] = price actions[j] ∧ TriedBefore actions i j)

/-- An action is an entry of a catalog that is dominated, if at all, only by cheaper twins and in
a plan of infinite cost. -/
def Justified (price : Action → WithTop β) (actions : List Action) (total : WithTop β)
    (a : Action) : Prop :=
  ∃ j : Fin actions.length, actions[j] = a ∧
    ∀ i, Dominates price actions i j → price actions[i] < price actions[j] ∧ total = ⊤

theorem Undominated.justified {total : WithTop β} (undominated : Undominated price actions cost a)
    (finite : cost = ⊤ → total = ⊤) : Justified price actions total a := by
  obtain ⟨j, rfl, best⟩ := undominated
  refine ⟨j, rfl, fun i ⟨twin, better⟩ => ?_⟩
  obtain ⟨least, first⟩ := best i twin
  rcases better with less | ⟨same, tried⟩
  · refine ⟨less, finite (by_contra fun small => ?_)⟩
    exact absurd least (not_le.mpr (WithTop.add_lt_add_left small less))
  · exact absurd tried (first same.le)

/-- If some actions cost infinitely much, then so do all. -/
theorem sum_eq_top {part : List Action} (sublist : part.Sublist found)
    (nonneg : ∀ a ∈ found, 0 ≤ price a) (infinite : (part.map price).sum = ⊤) :
    (found.map price).sum = ⊤ := by
  rw [← costBackward_eq_sum] at infinite ⊢
  exact top_le_iff.mp (infinite ▸ costBackward_le_of_sublist sublist nonneg)

variable [HAdd (WithTop β) ε ε] [Priority ε] [LawfulPriority ε] {heuristic : Heuristic ε}
  {budget : Option Nat} {wanted facts : Conditions} {state : WorldState}

theorem Regression.justified_of_find? (nonnegPrices : ∀ a ∈ actions, 0 ≤ price a)
    (answer : regression.find? heuristic budget price actions wanted facts = some (found, cost))
    (member : a ∈ found) : Justified price actions cost a := by
  obtain ⟨before, rest, split⟩ := List.append_of_mem member
  obtain ⟨listed, -, rfl, -⟩ := find?_sound answer
  refine (undominated_of_find? nonnegPrices answer split).justified fun infinite => ?_
  rw [costBackward_eq_sum] at infinite ⊢
  have sublist : rest.Sublist found :=
    split ▸ (List.sublist_cons_self a rest).trans (List.sublist_append_right before _)
  exact sum_eq_top sublist (fun b member => nonnegPrices b (listed member)) infinite

theorem Forward.justified_of_find? (nonnegPrices : ∀ a ∈ actions, 0 ≤ price a)
    (answer : forward.find? heuristic budget price actions wanted state.facts = some (found, cost))
    (member : a ∈ found) : Justified price actions cost a := by
  obtain ⟨before, rest, split⟩ := List.append_of_mem member
  obtain ⟨listed, -, rfl, -⟩ := find?_sound answer
  refine (undominated_of_find? nonnegPrices answer split).justified fun infinite => ?_
  rw [costForward_eq_sum] at infinite ⊢
  have sublist : before.Sublist found := split ▸ List.sublist_append_left before _
  exact sum_eq_top sublist (fun b member => nonnegPrices b (listed member)) infinite

/-- The plans of both searches contain no dominated entries, whatever the heuristic and the budget.
At the cost added up so far, which rounds, no twin of a planned entry comes to less in all, and none
that costs no more is tried before it. In exact prices a planned entry has no twin that costs the
same and is tried before it, and no twin that costs less unless the whole plan costs infinitely
much. -/
theorem plans_undominated {δ : Type} [HAdd Amount δ δ] [Priority δ] [LawfulPriority δ]
    (heuristic : Heuristic δ) (estimate : Heuristic ε) (budget : Option Nat)
    (actions : List Action) (goal : Goal) (state : WorldState) (price : Action → WithTop β)
    (nonnegPrices : ∀ a ∈ actions, 0 ≤ price a) :
    (∀ plan, (regression.search heuristic budget actions goal state).value = some plan →
      ∀ before a rest, plan.actions = before ++ a :: rest →
        Undominated (·.costIn state) actions (costBackward (·.costIn state) rest) a) ∧
    (∀ plan, (forward.search heuristic budget actions goal state).value = some plan →
      ∀ before a rest, plan.actions = before ++ a :: rest →
        Undominated (·.costIn state) actions (costForward (·.costIn state) before) a) ∧
    ∀ found cost,
      regression.find? estimate budget price actions goal.preconditions state.facts
          = some (found, cost) ∨
        forward.find? estimate budget price actions goal.preconditions state.facts
          = some (found, cost) →
      ∀ a ∈ found, Justified price actions cost a := by
  have nonnegCosts (a : Action) (_ : a ∈ actions) := a.costIn_nonneg state
  refine ⟨fun plan value before a rest split => ?_, fun plan value before a rest split => ?_,
    fun found cost answer a member => ?_⟩
  · obtain ⟨-, answer⟩ := Direction.value_search_eq_some_iff.mp value
    exact Regression.undominated_of_find? nonnegCosts answer split
  · obtain ⟨-, answer⟩ := Direction.value_search_eq_some_iff.mp value
    exact Forward.undominated_of_find? nonnegCosts answer split
  · rcases answer with answer | answer
    · exact Regression.justified_of_find? nonnegPrices answer member
    · exact Forward.justified_of_find? nonnegPrices answer member

end

end Search

/-! ## A locked door and two ways to its key -/

namespace LockedDoor

/-- Taking the key from its hook at a price. It comes behind fetching the key. -/
def takeKeyFor (price : Amount) : Action := { fetchKeyFor price with name := "takeKey" }

/-- Opening the door at a cost. -/
def openDoorAt (cost : Quantity) : Action := { openDoor with cost }

/-- Opening the door, and two ways to its key. -/
def twoKeys (fetch take : Amount) (door : Quantity) : List Action :=
  [openDoorAt door, takeKeyFor take, fetchKeyFor fetch]

variable {fetch take : Amount} {door : Quantity} {chain : List Action} {required : Conditions}

/-- Every chain of these actions is an end of opening the door with a key. -/
theorem chain_twoKeys (listed : chain ⊆ twoKeys fetch take door)
    (chained : outside.facts.residual? enter.preconditions chain = some required) :
    chain = [] ∧ required = .ofList [⟨"doorOpen", .flag true⟩] ∨
    chain = [openDoorAt door] ∧ required = .ofList [⟨"hasKey", .flag true⟩] ∨
    (chain = [fetchKeyFor fetch, openDoorAt door] ∨ chain = [takeKeyFor take, openDoorAt door]) ∧
      required = ∅ := by
  induction chain generalizing required with
  | nil => exact .inl ⟨rfl, (Option.some.inj chained).symm⟩
  | cons a rest ih =>
    obtain ⟨listedA, listedRest⟩ := List.cons_subset.mp listed
    obtain ⟨behind, chainedRest, achieves, regressed⟩ :=
      Conditions.residual?_cons_eq_some_iff.mp chained
    have isEntry : a = openDoorAt door ∨ a = takeKeyFor take ∨ a = fetchKeyFor fetch := by
      simpa [twoKeys] using listedA
    -- Once there is a key, nothing is lacking.
    rcases ih listedRest chainedRest with ⟨rfl, rfl⟩ | ⟨rfl, rfl⟩ | ⟨-, rfl⟩
    · rcases isEntry with rfl | rfl | rfl
      · exact .inr (.inl ⟨rfl, (Option.some.inj regressed).symm⟩)
      · exact Bool.noConfusion achieves
      · exact Bool.noConfusion achieves
    · rcases isEntry with rfl | rfl | rfl
      · exact Bool.noConfusion achieves
      · exact .inr (.inr ⟨.inr rfl, (Option.some.inj regressed).symm⟩)
      · exact .inr (.inr ⟨.inl rfl, (Option.some.inj regressed).symm⟩)
    · rcases isEntry with rfl | rfl | rfl <;> exact Bool.noConfusion achieves

theorem listed_twoKeys : [fetchKeyFor fetch, openDoorAt door] ⊆ twoKeys fetch take door := by
  simp [twoKeys]

theorem complete_twoKeys :
    outside.facts.CompleteChain enter.preconditions [fetchKeyFor fetch, openDoorAt door] :=
  ⟨∅, rfl, rfl⟩

/-- Fetching the key is a twin of taking it, and is tried before. -/
theorem exists_twin_takeKey {j : Fin (twoKeys fetch take door).length}
    (same : (twoKeys fetch take door)[j] = takeKeyFor take) :
    ∃ i, (twoKeys fetch take door)[i] = fetchKeyFor fetch ∧
      (twoKeys fetch take door)[i].Twin (twoKeys fetch take door)[j] ∧
      Search.TriedBefore (twoKeys fetch take door) i j := by
  have name : (twoKeys fetch take door)[j].name = "takeKey" := congrArg Action.name same
  match j, name with
  | ⟨0, _⟩, name => exact absurd name (show ¬ "openDoor" = "takeKey" by decide)
  | ⟨1, _⟩, _ =>
    refine ⟨⟨2, Nat.lt_add_one 2⟩, rfl, ⟨rfl, rfl⟩, .inl ?_⟩
    exact show "fetchKey" < "takeKey" by decide
  | ⟨2, _⟩, name => exact absurd name (show ¬ "fetchKey" = "takeKey" by decide)

end LockedDoor

namespace Search

open LockedDoor

/-- Where fetching the key comes to no more than taking it, taking it is not preferred. -/
theorem not_preferred_takeKey {α : Type} [Add α] [LE α] {price : Action → α} {cost : α}
    {fetch take : Amount} {door : Quantity}
    (le : cost + price (fetchKeyFor fetch) ≤ cost + price (takeKeyFor take)) :
    ¬ Preferred price (twoKeys fetch take door) cost (takeKeyFor take) := by
  rintro ⟨j, same, best⟩
  obtain ⟨i, isFetch, twin, tried⟩ := exists_twin_takeKey same
  refine best i ⟨twin, .inr ⟨?_, tried⟩⟩
  rw [isFetch, same]
  exact le

/-- Where fetching the key costs no more than taking it, taking it is dominated. -/
theorem not_undominated_takeKey {α : Type} [Add α] [LE α] {price : Action → α} {cost : α}
    {fetch take : Amount} {door : Quantity}
    (le : price (fetchKeyFor fetch) ≤ price (takeKeyFor take)) :
    ¬ Undominated price (twoKeys fetch take door) cost (takeKeyFor take) := by
  rintro ⟨j, same, best⟩
  obtain ⟨i, isFetch, twin, tried⟩ := exists_twin_takeKey same
  refine (best i twin).2 ?_ tried
  rw [isFetch, same]
  exact le

/-- At a price of one for each action, both searches find the key fetched, not taken, although
taking it stands before fetching it in the catalog. -/
theorem plans_undominated_twoKeys :
    (∃ plan, (regression.search .zero none (twoKeys 1 1 (.fixed 1)) enter outside).value
        = some plan ∧ takeKeyFor 1 ∉ plan.actions) ∧
    (∃ plan, (forward.search .zero none (twoKeys 1 1 (.fixed 1)) enter outside).value
        = some plan ∧ takeKeyFor 1 ∉ plan.actions) ∧
    ∃ found cost, regression.find? (fun _ => 0) none (fun _ => (1 : WithTop ℕ))
        (twoKeys 1 1 (.fixed 1)) enter.preconditions outside.facts = some (found, cost) ∧
      takeKeyFor 1 ∉ found := by
  have nonneg (a : Action) (_ : a ∈ twoKeys 1 1 (.fixed 1)) : 0 ≤ (1 : WithTop ℕ) := zero_le
  have dominated (cost : Amount) :
      ¬ Undominated (·.costIn outside) (twoKeys 1 1 (.fixed 1)) cost (takeKeyFor 1) :=
    not_undominated_takeKey (LawfulCost.le_rfl ((takeKeyFor 1).costIn_nonneg outside))
  obtain ⟨backward, foundBackward⟩ := Regression.exists_plan listed_twoKeys complete_twoKeys
  obtain ⟨forward, foundForward⟩ :=
    Forward.exists_plan listed_twoKeys (WorldState.completeChain_iff.mp complete_twoKeys).1
  obtain ⟨found, cost, answer, -⟩ :=
    (Regression.cheapest nonneg).exists_answer ⟨listed_twoKeys, complete_twoKeys⟩
  obtain ⟨byRegression, byForward, exactly⟩ := plans_undominated .zero (fun _ => 0) none
    (twoKeys 1 1 (.fixed 1)) enter outside (fun _ => (1 : WithTop ℕ)) nonneg
  refine ⟨⟨backward, foundBackward, fun member => ?_⟩, ⟨forward, foundForward, fun member => ?_⟩,
    found, cost, answer, fun member => ?_⟩
  · obtain ⟨before, rest, split⟩ := List.append_of_mem member
    exact dominated _ (byRegression backward foundBackward _ _ _ split)
  · obtain ⟨before, rest, split⟩ := List.append_of_mem member
    exact dominated _ (byForward forward foundForward _ _ _ split)
  · obtain ⟨j, isTake, cheaper⟩ := exactly found cost (.inl answer) _ member
    obtain ⟨i, -, twin, tried⟩ := exists_twin_takeKey isTake
    exact lt_irrefl _ (cheaper i ⟨twin, .inr ⟨rfl, tried⟩⟩).1

/-- Where opening the door costs infinitely much, regression search finds the key fetched at a
price of two and not taken at a price of one, which would do the same. -/
theorem infinite_plan_dominated :
    ∃ plan, (regression.search .zero none (twoKeys 2 1 (.computed 0 fun _ => 1 / 0)) enter
        outside).value = some plan ∧
      fetchKeyFor 2 ∈ plan.actions ∧ (takeKeyFor 1).Twin (fetchKeyFor 2) ∧
      takeKeyFor 1 ∈ twoKeys 2 1 (.computed 0 fun _ => 1 / 0) ∧
      (takeKeyFor 1).costIn outside < (fetchKeyFor 2).costIn outside := by
  have nonneg (a : Action) (_ : a ∈ twoKeys 2 1 (.computed 0 fun _ => 1 / 0)) :=
    a.costIn_nonneg outside
  obtain ⟨found, cost, answer, -⟩ :=
    (Regression.cheapest nonneg).exists_answer ⟨listed_twoKeys, complete_twoKeys⟩
  obtain ⟨among, ⟨required, chained, satisfied⟩, -⟩ := Regression.find?_sound answer
  refine ⟨⟨enter, found, cost⟩,
    (Direction.value_search ..).trans (congrArg (Option.map _) answer), ?_, ⟨rfl, rfl⟩,
    by simp [twoKeys], by decide +kernel⟩
  rcases chain_twoKeys among chained with ⟨-, rfl⟩ | ⟨-, rfl⟩ | ⟨rfl | rfl, -⟩
  · exact Bool.noConfusion satisfied
  · exact Bool.noConfusion satisfied
  · exact List.mem_cons_self
  · -- On top of the door, both ways to the key come to the same.
    have preferred := Regression.preferred_of_find? nonneg answer (List.nil_append _).symm
    exact absurd preferred (not_preferred_takeKey (by decide +kernel))

end Search

end ActionPlanning
