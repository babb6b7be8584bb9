import ActionPlanning.Search.Arena
import ActionPlanning.Search.Frontier.Lemmas
import Mathlib.Data.List.Perm.Subperm
import Std.Data.TreeMap.Lemmas

/-!
# The arena stays consistent

Three structures are kept side by side in an arena: the nodes, the record of the cheapest node per
key, and the frontier. A node is live while it is the one on record for its key. This file says
what makes the three structures agree, shows that offering a node and handing one out keep them in
agreement, and describes what is handed out: a live node that comes before every live node that
waits, or nothing at all once no live node waits.

## Main definitions

* `Arena.Live`, `Arena.Waits`: being on record, and standing in the frontier.
* `Arena.CoveredBy`: being on record for a key at no more than some cost.
* `Arena.Consistent`: the agreement of nodes, record and frontier.
* `Arena.Takes`, `Arena.HandsOut`: what it means that the first node is taken from the frontier,
  and that a node is handed out.

## Main results

* `Arena.Consistent.offer`: offering keeps the agreement.
* `Arena.Consistent.next?_eq_some`, `Arena.Consistent.next?_eq_none`: what is handed out.
-/

namespace ActionPlanning.Search.Arena

variable {κ σ α ε : Type} [Ord κ]

/-- A node is live while it is the one on record for its key. -/
def Live (arena : Arena κ σ α ε) (index : Nat) : Prop :=
  ∃ node, arena.nodes[index]? = some node ∧ arena.record[node.key]? = some index

/-- A node waits while it stands in the frontier. -/
def Waits (arena : Arena κ σ α ε) (index : Nat) : Prop :=
  ∃ w ∈ arena.frontier.toList, w.node = index

variable {arena rest : Arena κ σ α ε} {node other : Node κ σ α} {key : κ} {priority : ε}
  {index i : Nat}

/-- A node of the arena is live exactly if it is on record for its key. -/
theorem live_iff_of_found (found : arena.nodes[i]? = some node) :
    arena.Live i ↔ arena.record[node.key]? = some i := by
  constructor
  · rintro ⟨n, foundAgain, recorded⟩
    obtain rfl := Option.some.inj (found.symm.trans foundAgain)
    exact recorded
  · intro recorded
    exact ⟨node, found, recorded⟩

/-- A key is covered at a cost by the node that is on record for it at no higher cost. -/
structure CoveredBy [LE α] (arena : Arena κ σ α ε) (key : κ) (cost : α) (index : Nat)
    (node : Node κ σ α) : Prop where
  recorded : arena.record[key]? = some index
  found : arena.nodes[index]? = some node
  le : node.cost ≤ cost

theorem covers_iff [LE α] [DecidableLE α] {cost : α} :
    arena.covers key cost = true ↔ ∃ index node, arena.CoveredBy key cost index node := by
  simp only [covers, recorded?, Option.any_eq_true, decide_eq_true_eq,
    Option.bind_eq_bind, Option.bind_eq_some_iff, Option.pure_def, Option.some.injEq]
  constructor
  · rintro ⟨_, ⟨index, recorded, node, found, rfl⟩, le⟩
    exact ⟨index, node, recorded, found, le⟩
  · rintro ⟨index, node, recorded, found, le⟩
    exact ⟨_, ⟨index, recorded, node, found, rfl⟩, le⟩

theorem CoveredBy.covers [LE α] [DecidableLE α] {cost bound : α}
    (covered : arena.CoveredBy key cost i node) (le : node.cost ≤ bound) :
    arena.covers key bound = true :=
  covers_iff.mpr ⟨i, node, covered.recorded, covered.found, le⟩

variable [Priority ε]

/-- The agreement of nodes, record and frontier. Every node enters the frontier when it enters the
arena, so nodes are numbered by their arrival. -/
structure Consistent (arena : Arena κ σ α ε) : Prop where
  frontier : arena.frontier.WellFormed
  arrivals : arena.frontier.arrivals = arena.nodes.size
  numbered : ∀ w ∈ arena.frontier.toList, w.node = w.arrival
  once : (arena.frontier.toList.map Waiting.node).Nodup
  recorded : ∀ {key : κ} {index : Nat}, arena.record[key]? = some index →
    ∃ node, arena.nodes[index]? = some node ∧ node.key = key
  known : ∀ {index : Nat} {node : Node κ σ α}, arena.nodes[index]? = some node →
    ∃ best, arena.record[node.key]? = some best

theorem Consistent.lt_size_of_waits (consistent : arena.Consistent) (waits : arena.Waits i) :
    i < arena.nodes.size := by
  obtain ⟨w, member, rfl⟩ := waits
  rw [consistent.numbered w member, ← consistent.arrivals]
  exact consistent.frontier.arrived w member

theorem Consistent.live_of_record (consistent : arena.Consistent)
    (recorded : arena.record[key]? = some i) : arena.Live i := by
  obtain ⟨node, found, rfl⟩ := consistent.recorded recorded
  exact ⟨node, found, recorded⟩

/-- The node that covers a key is a node of that key. -/
theorem CoveredBy.key_eq [LE α] {cost : α} (covered : arena.CoveredBy key cost i node)
    (consistent : arena.Consistent) : node.key = key := by
  obtain ⟨n, found, same⟩ := consistent.recorded covered.recorded
  obtain rfl := Option.some.inj (covered.found.symm.trans found)
  exact same

/-! ## Handing out a node -/

/-- What it means that a node is handed out of an arena: it is live and comes before every live
node that waits; it waits no longer, and every other live node that waits still does. -/
structure HandsOut (arena : Arena κ σ α ε) (index : Nat) (node : Node κ σ α)
    (rest : Arena κ σ α ε) : Prop where
  nodes : rest.nodes = arena.nodes
  record : rest.record = arena.record
  found : arena.nodes[index]? = some node
  recorded : arena.record[node.key]? = some index
  first : ∃ w ∈ arena.frontier.toList, w.node = index ∧
    ∀ v ∈ arena.frontier.toList, arena.Live v.node → w.before v = true
  gone : ¬ rest.Waits index
  kept : ∀ {i}, i ≠ index → arena.Live i → arena.Waits i → rest.Waits i
  waited : ∀ {w}, w ∈ rest.frontier.toList → w ∈ arena.frontier.toList

theorem HandsOut.live (out : arena.HandsOut index node rest) : arena.Live index :=
  ⟨node, out.found, out.recorded⟩

theorem HandsOut.waits (out : arena.HandsOut index node rest) : arena.Waits index :=
  out.first.imp fun _ ⟨member, named, _⟩ => ⟨member, named⟩

theorem HandsOut.live_iff (out : arena.HandsOut index node rest) : rest.Live i ↔ arena.Live i := by
  simp only [Live, out.nodes, out.record]

/-- Distinct nodes wait, so at most as many wait as ever arrived. -/
theorem Consistent.length_frontier_le (consistent : arena.Consistent) :
    arena.frontier.toList.length ≤ arena.frontier.arrivals := by
  have inside : arena.frontier.toList.map Waiting.node ⊆ List.range arena.frontier.arrivals := by
    intro i member
    obtain ⟨w, waits, rfl⟩ := List.mem_map.mp member
    rw [consistent.arrivals]
    exact List.mem_range.mpr (consistent.lt_size_of_waits ⟨w, waits, rfl⟩)
  -- The list has no duplicates, so it is no longer than the range it lies in.
  simpa using (List.subperm_of_subset consistent.once inside).length_le

/-- What it means that the first node is taken from the frontier: it comes before all that still
wait, and what is left of the arena is consistent. -/
structure Takes (arena : Arena κ σ α ε) (first : Waiting ε) (frontier : Frontier ε) : Prop where
  split : arena.frontier.toList.Perm (first :: frontier.toList)
  before : ∀ w ∈ frontier.toList, first.before w = true
  consistent : ({ arena with frontier } : Arena κ σ α ε).Consistent

section

variable {first : Waiting ε} {frontier : Frontier ε}

theorem Takes.mem_iff {w : Waiting ε} (takes : arena.Takes first frontier) :
    w ∈ arena.frontier.toList ↔ w = first ∨ w ∈ frontier.toList :=
  takes.split.mem_iff.trans List.mem_cons

theorem Takes.mem (takes : arena.Takes first frontier) : first ∈ arena.frontier.toList :=
  takes.mem_iff.mpr (.inl rfl)

theorem Takes.length_eq (takes : arena.Takes first frontier) :
    arena.frontier.toList.length = frontier.toList.length + 1 :=
  takes.split.length_eq

/-- What is taken from the frontier stands in the arena. -/
theorem Takes.exists_found (takes : arena.Takes first frontier) (consistent : arena.Consistent) :
    ∃ node, arena.nodes[first.node]? = some node :=
  ⟨_, Array.getElem?_eq_getElem (consistent.lt_size_of_waits ⟨first, takes.mem, rfl⟩)⟩

/-- If the first node is not live, then whatever is handed out without it is handed out. -/
theorem Takes.pass (takes : arena.Takes first frontier) (stale : ¬ arena.Live first.node)
    (out : ({ arena with frontier } : Arena κ σ α ε).HandsOut index node rest) :
    arena.HandsOut index node rest := by
  obtain ⟨w, member, named, least⟩ := out.first
  -- A live node is not the one that was passed over, so it still waits behind it.
  have behind {v : Waiting ε} (live : arena.Live v.node) (member : v ∈ arena.frontier.toList) :
      v ∈ frontier.toList := by
    rcases takes.mem_iff.mp member with rfl | member
    · exact absurd live stale
    · exact member
  refine ⟨out.nodes, out.record, out.found, out.recorded, ?_, out.gone, ?_, ?_⟩
  · refine ⟨w, takes.mem_iff.mpr (.inr member), named, fun v member live => ?_⟩
    exact least v (behind live member) live
  · intro i differ live waits
    obtain ⟨v, member, rfl⟩ := waits
    exact out.kept differ live ⟨v, behind live member, rfl⟩
  · intro w member
    exact takes.mem_iff.mpr (.inr (out.waited member))

variable [LawfulPriority ε]

/-- If the first node is live, it is handed out. -/
theorem Takes.handsOut (takes : arena.Takes first frontier) (consistent : arena.Consistent)
    (found : arena.nodes[first.node]? = some node)
    (recorded : arena.record[node.key]? = some first.node) :
    arena.HandsOut first.node node { arena with frontier } := by
  refine ⟨rfl, rfl, found, recorded, ⟨first, takes.mem, rfl, fun v member _ => ?_⟩, ?_, ?_, ?_⟩
  · rcases takes.mem_iff.mp member with rfl | member
    · exact (Waiting.before_total v v).elim id id
    · exact takes.before v member
  · intro waits
    obtain ⟨v, member, same⟩ := waits
    have once := consistent.once
    rw [(takes.split.map Waiting.node).nodup_iff, List.map_cons, List.nodup_cons] at once
    exact once.1 (List.mem_map.mpr ⟨v, member, same⟩)
  · intro i differ _ waits
    obtain ⟨v, member, rfl⟩ := waits
    rcases takes.mem_iff.mp member with rfl | member
    · exact absurd rfl differ
    · exact ⟨v, member, rfl⟩
  · intro w member
    exact takes.mem_iff.mpr (.inr member)

/-- What the frontier pops is its first node. -/
theorem Consistent.takes (consistent : arena.Consistent)
    (popped : arena.frontier.pop? = some (index, frontier)) :
    ∃ first : Waiting ε, first.node = index ∧ arena.Takes first frontier := by
  obtain ⟨first, named, split, before, wellFormed⟩ :=
    Frontier.pop?_eq_some consistent.frontier popped
  -- Popping leaves the count of arrivals alone, so nodes keep their numbers.
  have arrivals : frontier.arrivals = arena.frontier.arrivals := by
    unfold Frontier.pop? at popped
    split at popped
    · exact absurd popped (by simp)
    · simp only [Option.some.injEq, Prod.mk.injEq] at popped
      rw [← popped.2]
  refine ⟨first, named, split, before,
    ⟨wellFormed, arrivals.trans consistent.arrivals, fun w member => ?_, ?_,
      consistent.recorded, consistent.known⟩⟩
  · exact consistent.numbered w (split.mem_iff.mpr (List.mem_cons_of_mem _ member))
  · have once := consistent.once
    rw [(split.map Waiting.node).nodup_iff, List.map_cons, List.nodup_cons] at once
    exact once.2

theorem Consistent.nextWithin_eq_some {fuel : Nat} (consistent : arena.Consistent)
    (next : arena.nextWithin fuel = some (index, node, rest)) :
    rest.Consistent ∧ arena.HandsOut index node rest := by
  -- Stale nodes are passed over one by one, until the first one is live.
  induction fuel generalizing arena with
  | zero => simp [nextWithin] at next
  | succ fuel ih =>
    rw [nextWithin] at next
    split at next
    case h_1 => exact absurd next (by simp)
    case h_2 popped frontier hpop =>
      obtain ⟨first, rfl, takes⟩ := consistent.takes hpop
      obtain ⟨n, found⟩ := takes.exists_found consistent
      simp only [found] at next
      split at next
      case isTrue onRecord =>
        obtain ⟨rfl, rfl, rfl⟩ : first.node = index ∧ n = node
            ∧ { arena with frontier } = rest := by
          simpa using next
        exact ⟨takes.consistent, takes.handsOut consistent found onRecord⟩
      case isFalse stale =>
        obtain ⟨consistentRest, out⟩ := ih takes.consistent next
        exact ⟨consistentRest, takes.pass (mt (live_iff_of_found found).mp stale) out⟩

/-- What is handed out is live and comes before every live node that waits. -/
theorem Consistent.next?_eq_some (consistent : arena.Consistent)
    (next : arena.next? = some (index, node, rest)) :
    rest.Consistent ∧ arena.HandsOut index node rest :=
  consistent.nextWithin_eq_some next

theorem Consistent.nextWithin_eq_none {fuel : Nat} (consistent : arena.Consistent)
    (enough : arena.frontier.toList.length ≤ fuel) (next : arena.nextWithin fuel = none)
    (waits : arena.Waits i) : ¬ arena.Live i := by
  obtain ⟨w, member, rfl⟩ := waits
  -- With one node less waiting on each turn, the fuel lasts until none is left.
  induction fuel generalizing arena with
  | zero =>
    rw [List.length_eq_zero_iff.mp (Nat.le_zero.mp enough)] at member
    exact absurd member List.not_mem_nil
  | succ fuel ih =>
    rw [nextWithin] at next
    split at next
    case h_1 hpop =>
      rw [Frontier.pop?_eq_none_iff.mp hpop] at member
      exact absurd member List.not_mem_nil
    case h_2 popped frontier hpop =>
      obtain ⟨first, rfl, takes⟩ := consistent.takes hpop
      obtain ⟨n, found⟩ := takes.exists_found consistent
      rw [takes.length_eq] at enough
      simp only [found] at next
      split at next
      case isTrue => exact absurd next (by simp)
      case isFalse stale =>
        rcases takes.mem_iff.mp member with rfl | member
        · exact mt (live_iff_of_found found).mp stale
        · -- What is left keeps its nodes and its record, hence what is live.
          have dead := ih takes.consistent (Nat.le_of_succ_le_succ enough) next member
          exact dead

/-- Nothing is handed out only when no live node waits. -/
theorem Consistent.next?_eq_none (consistent : arena.Consistent) (next : arena.next? = none)
    (waits : arena.Waits i) : ¬ arena.Live i :=
  consistent.nextWithin_eq_none consistent.length_frontier_le next waits

end

/-! ## Offering a node -/

/-- The arena with a node added, queued and put on record. -/
def enter (arena : Arena κ σ α ε) (node : Node κ σ α) (priority : ε) : Arena κ σ α ε :=
  ⟨arena.nodes.push node, arena.record.insert node.key arena.nodes.size,
    arena.frontier.push arena.nodes.size priority⟩

/-- A node enters the arena unless its key is on record at no higher cost. -/
theorem offer_eq [LE α] [DecidableLE α] : arena.offer node priority =
    if arena.covers node.key node.cost then arena else arena.enter node priority := rfl

theorem nodes_enter :
    (arena.enter node priority).nodes[i]?
      = if i = arena.nodes.size then some node else arena.nodes[i]? :=
  Array.getElem?_push

@[simp] theorem nodes_enter_self :
    (arena.enter node priority).nodes[arena.nodes.size]? = some node := by
  rw [nodes_enter, if_pos rfl]

theorem nodes_enter_of_found (found : arena.nodes[i]? = some other) :
    (arena.enter node priority).nodes[i]? = some other := by
  obtain ⟨bound, -⟩ := Array.getElem?_eq_some_iff.mp found
  rw [nodes_enter, if_neg (Nat.ne_of_lt bound), found]

/-- A node of the arena after an offer is the one offered, or it was there before. -/
theorem getElem?_offer [LE α] [DecidableLE α]
    (found : (arena.offer node priority).nodes[i]? = some other) :
    (arena.covers node.key node.cost = false ∧ i = arena.nodes.size ∧ other = node) ∨
      arena.nodes[i]? = some other := by
  rw [offer_eq] at found
  split at found
  case isTrue => exact .inr found
  case isFalse uncovered =>
    rw [nodes_enter] at found
    split at found
    case isTrue last =>
      exact .inl ⟨Bool.eq_false_iff.mpr uncovered, last, (Option.some.inj found).symm⟩
    case isFalse => exact .inr found

theorem toList_frontier_enter (consistent : arena.Consistent) :
    (arena.enter node priority).frontier.toList.Perm
      (⟨priority, arena.nodes.size, arena.nodes.size⟩ :: arena.frontier.toList) := by
  have pushed := Frontier.toList_push consistent.frontier arena.nodes.size priority
  rwa [consistent.arrivals] at pushed

/-- Offering a node keeps count of the nodes that no longer wait. -/
theorem Consistent.length_frontier_offer [LE α] [DecidableLE α] {popped : Nat}
    (consistent : arena.Consistent)
    (counted : popped + arena.frontier.toList.length = arena.nodes.size) :
    popped + (arena.offer node priority).frontier.toList.length
      = (arena.offer node priority).nodes.size := by
  rw [offer_eq]
  split
  case isTrue => exact counted
  case isFalse =>
    rw [(toList_frontier_enter consistent).length_eq]
    simp only [enter, Array.size_push, List.length_cons]
    omega

theorem waits_enter_iff (consistent : arena.Consistent) :
    (arena.enter node priority).Waits i ↔ i = arena.nodes.size ∨ arena.Waits i := by
  simp only [Waits, (toList_frontier_enter consistent).mem_iff, List.mem_cons,
    exists_eq_or_imp, eq_comm (a := i)]

variable [Std.TransOrd κ]

theorem Consistent.empty : (empty : Arena κ σ α ε).Consistent where
  frontier := .empty
  arrivals := rfl
  numbered _ member := absurd member List.not_mem_nil
  once := .nil
  recorded recorded := by
    rw [Arena.empty, Std.TreeMap.getElem?_emptyc] at recorded
    exact absurd recorded (by simp)
  known found := by simp [Arena.empty] at found

theorem record_enter_self :
    (arena.enter node priority).record[node.key]? = some arena.nodes.size :=
  Std.TreeMap.getElem?_insert_self

variable [Std.LawfulEqOrd κ]

theorem record_enter_of_ne (differ : node.key ≠ key) :
    (arena.enter node priority).record[key]? = arena.record[key]? := by
  rw [enter, Std.TreeMap.getElem?_insert, if_neg]
  exact fun same => differ (Std.LawfulEqCmp.eq_of_compare same)

/-- What is covered stays covered when a node comes in that is cheaper than the one on record. -/
theorem CoveredBy.exists_enter [LE α] {cost : α} (covered : arena.CoveredBy key cost i other)
    (cheaper : node.key = key → node.cost ≤ cost) :
    ∃ index best, (arena.enter node priority).CoveredBy key cost index best := by
  by_cases same : node.key = key
  · exact ⟨arena.nodes.size, node, same ▸ record_enter_self, nodes_enter_self, cheaper same⟩
  · exact ⟨i, other, (record_enter_of_ne same).trans covered.recorded,
      nodes_enter_of_found covered.found, covered.le⟩

/-- The node that came in is live, and so is what was live for another key. -/
theorem live_enter_iff (consistent : arena.Consistent) :
    (arena.enter node priority).Live i ↔
      i = arena.nodes.size ∨
        ∃ other, arena.nodes[i]? = some other ∧ arena.record[other.key]? = some i
          ∧ node.key ≠ other.key := by
  constructor
  · intro live
    obtain ⟨n, found, recorded⟩ := live
    by_cases same : node.key = n.key
    · rw [← same, record_enter_self] at recorded
      exact .inl (Option.some.inj recorded).symm
    · rw [record_enter_of_ne same] at recorded
      obtain ⟨m, foundOld, keys⟩ := consistent.recorded recorded
      rw [nodes_enter_of_found foundOld] at found
      obtain rfl := Option.some.inj found
      exact .inr ⟨m, foundOld, recorded, same⟩
  · intro known
    rcases known with rfl | ⟨n, found, recorded, differ⟩
    · exact ⟨node, nodes_enter_self, record_enter_self⟩
    · exact ⟨n, nodes_enter_of_found found, by rw [record_enter_of_ne differ, recorded]⟩

variable [LawfulPriority ε]

theorem Consistent.enter (consistent : arena.Consistent) :
    (arena.enter node priority).Consistent where
  frontier := consistent.frontier.push
  arrivals := by
    simp [Arena.enter, Frontier.push, consistent.arrivals]
  numbered w member := by
    rcases List.mem_cons.mp ((toList_frontier_enter consistent).mem_iff.mp member) with rfl | old
    · rfl
    · exact consistent.numbered w old
  once := by
    rw [((toList_frontier_enter consistent).map Waiting.node).nodup_iff, List.map_cons,
      List.nodup_cons]
    refine ⟨fun member => ?_, consistent.once⟩
    -- The new index is the size of the arena, and all that waits has a smaller one.
    obtain ⟨w, waits, same⟩ := List.mem_map.mp member
    exact Nat.lt_irrefl _ (consistent.lt_size_of_waits ⟨w, waits, same⟩)
  recorded {key index} recorded := by
    by_cases same : node.key = key
    · rw [← same, record_enter_self] at recorded
      obtain rfl := Option.some.inj recorded
      exact ⟨node, nodes_enter_self, same⟩
    · rw [record_enter_of_ne same] at recorded
      obtain ⟨n, found, keys⟩ := consistent.recorded recorded
      exact ⟨n, nodes_enter_of_found found, keys⟩
  known {index n} found := by
    by_cases same : node.key = n.key
    · exact ⟨arena.nodes.size, by rw [← same, record_enter_self]⟩
    · rw [nodes_enter] at found
      split at found
      case isTrue => exact absurd (congrArg Node.key (Option.some.inj found)) same
      case isFalse =>
        rw [record_enter_of_ne same]
        exact consistent.known found

/-- Offering a node keeps the agreement. -/
theorem Consistent.offer [LE α] [DecidableLE α] (consistent : arena.Consistent) :
    (arena.offer node priority).Consistent := by
  rw [offer_eq]
  split
  · exact consistent
  · exact consistent.enter

end ActionPlanning.Search.Arena
