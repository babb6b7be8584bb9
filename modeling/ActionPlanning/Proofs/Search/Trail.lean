import ActionPlanning.Proofs.Search.Coverage

/-!
# The trail to what is found

What a search finds is read back through the origins of its nodes. Every node on this way was on
record for its key when it was handed out. So it was reached by a move that no other move between
the same two keys undercuts: the others come to no less, and those tried before it come to more.
And no key comes up twice on the way, because costs never fall along it, while of two nodes of one
key the later one is cheaper. Nothing is asked of the estimates.

## Main definitions

* `Leads`, `Picks`: a move is tried before all that do as well, and no move undercuts it.
* `Problem.ComesBy`: how a node was reached from an expanded one.
* `Problem.Trail`: a walk by such moves on which no key comes up twice.

## Main results

* `Problem.Visits.picks_of_live`: how live nodes were reached.
* `Problem.run_found_trail`: what a search finds lies at the end of a trail.
-/

namespace ActionPlanning.Search

variable {κ σ α ε : Type} [Add α] [LE α]

/-- The moves to the same key that stand before this one come to more. -/
def Leads (moves : List (Move κ σ α)) (cost : α) (move : Move κ σ α) : Prop :=
  ∃ ahead behind, moves = ahead ++ move :: behind ∧
    ∀ other ∈ ahead, other.key = move.key → ¬ cost + other.cost ≤ cost + move.cost

/-- No move to the same key comes to less than this one, and those that stand before it come to
more. -/
structure Picks (moves : List (Move κ σ α)) (cost : α) (move : Move κ σ α) : Prop where
  first : Leads moves cost move
  least : ∀ other ∈ moves, other.key = move.key → cost + move.cost ≤ cost + other.cost

theorem Leads.mem {moves : List (Move κ σ α)} {cost : α} {move : Move κ σ α}
    (leads : Leads moves cost move) : move ∈ moves := by
  obtain ⟨ahead, behind, rfl, -⟩ := leads
  exact List.mem_append_right _ List.mem_cons_self

namespace Problem

variable [Zero α] {problem : Problem κ σ α ε} {expanded later : List Nat} {index : Nat}
  {node : Node κ σ α} {fit : List (Move κ σ α) → α → Move κ σ α → Prop}

/-- A node is the start, or it was reached from an expanded node before it, by a move that fits
among the moves from there. -/
def ComesBy (problem : Problem κ σ α ε) (fit : List (Move κ σ α) → α → Move κ σ α → Prop)
    (nodes : Array (Node κ σ α)) (expanded : List Nat) (index : Nat) (node : Node κ σ α) : Prop :=
  node = ⟨problem.start, none, 0⟩ ∨
    ∃ i ∈ expanded, i < index ∧ ∃ before, nodes[i]? = some before ∧
      ∃ move, fit (problem.moves before.key) before.cost move ∧ node = nodeAfter i before move

/-- A walk from the start to a key, with the keys on the way and the steps, the last ones first:
each move is picked among all moves from its key, and leads to a key that did not come up before. -/
inductive Trail (problem : Problem κ σ α ε) : κ → List κ → List σ → α → Prop
  | start : problem.Trail problem.start [] [] 0
  | step {key : κ} {earlier : List κ} {steps : List σ} {cost : α} {move : Move κ σ α} :
    problem.Trail key earlier steps cost → Picks (problem.moves key) cost move →
    move.key ∉ key :: earlier →
    problem.Trail move.key (key :: earlier) (move.step :: steps) (cost + move.cost)

namespace Trail

variable {key : κ} {earlier : List κ} {steps : List σ} {cost : α}

/-- No key comes up twice on a trail. -/
theorem nodup (trail : problem.Trail key earlier steps cost) : (key :: earlier).Nodup := by
  induction trail with
  | start => exact List.nodup_cons.mpr ⟨List.not_mem_nil, .nil⟩
  | step _ _ fresh ih => exact List.nodup_cons.mpr ⟨fresh, ih⟩

theorem walk (trail : problem.Trail key earlier steps cost) :
    problem.Walk problem.start 0 key steps cost := by
  induction trail with
  | start => exact .stay
  | step _ picked _ ih => exact .step ih picked.first.mem

end Trail

omit [LE α] in
/-- How a node was reached does not change when nodes are added and expanded. -/
theorem ComesBy.mono {nodes more : Array (Node κ σ α)}
    (comes : problem.ComesBy fit nodes expanded index node)
    (kept : ∀ {i : Nat} {n : Node κ σ α}, nodes[i]? = some n → more[i]? = some n)
    (among : expanded ⊆ later) : problem.ComesBy fit more later index node :=
  comes.imp_right fun ⟨i, done, earlier, before, found, picked⟩ =>
    ⟨i, among done, earlier, before, kept found, picked⟩

variable [Ord κ] [Std.TransOrd κ] [Std.LawfulEqOrd κ] [DecidableLE α] [HAdd α ε ε] [Priority ε]
  {arena rest : Arena κ σ α ε}

variable [LawfulCost α]

/-- While the moves of a node are offered one by one, each that comes in leads: the moves ahead of
it are covered already. -/
theorem Closed.comesBy_offerAll (ahead behind : List (Move κ σ α))
    (closed : problem.Closed arena expanded) (found : arena.nodes[index]? = some node)
    (split : problem.moves node.key = ahead ++ behind) (nonneg : problem.Nonneg)
    (covered : ∀ move ∈ ahead, arena.covers move.key (node.cost + move.cost) = true)
    (known : ∀ i n, arena.nodes[i]? = some n →
      problem.ComesBy Leads arena.nodes (index :: expanded) i n) :
    let after := behind.foldl
      (fun arena move => problem.offer arena (nodeAfter index node move)) arena
    ∀ i n, after.nodes[i]? = some n →
      problem.ComesBy Leads after.nodes (index :: expanded) i n := by
  induction behind generalizing arena ahead with
  | nil => exact known
  | cons move behind ih =>
    have member : move ∈ problem.moves node.key :=
      split ▸ List.mem_append_right _ List.mem_cons_self
    have nonnegAfter : 0 ≤ (nodeAfter index node move).cost :=
      LawfulCost.nonneg_add (closed.nonneg found) (nonneg _ _ member)
    obtain ⟨coversMove, keeps⟩ := closed.covers_offer nonnegAfter
    have foundAfter : (problem.offer arena (nodeAfter index node move)).nodes[index]? = some node :=
      nodes_offer_of_found found
    refine ih (ahead ++ [move]) (closed.offer nonnegAfter) foundAfter (by simp [split])
      (fun other listed => ?_) (fun i n foundN => ?_)
    · rcases List.mem_append.mp listed with before | last
      · exact keeps _ _ (covered other before)
      · obtain rfl := List.mem_singleton.mp last
        exact coversMove
    · rcases Arena.getElem?_offer foundN with ⟨uncovered, rfl, rfl⟩ | old
      · -- A move ahead that came to no more would have covered the key.
        have leads : Leads (problem.moves node.key) node.cost move := by
          refine ⟨ahead, behind, split, fun other listed same le => ?_⟩
          obtain ⟨j, best, coveredBy⟩ := Arena.covers_iff.mp (covered other listed)
          have covers := coveredBy.covers
            (LawfulCost.le_trans (closed.nonneg coveredBy.found) coveredBy.le le)
          rw [same] at covers
          exact Bool.eq_false_iff.mp uncovered covers
        exact .inr ⟨index, List.mem_cons_self, (Array.getElem?_eq_some_iff.mp found).1, node,
          foundAfter, move, leads, rfl⟩
      · exact (known i n old).mono nodes_offer_of_found (List.Subset.refl _)

omit [HAdd α ε ε] [Priority ε] [Std.TransOrd κ] [Std.LawfulEqOrd κ] in
/-- The way back through the origins of the nodes is a trail. Its keys are those of earlier nodes
that cost no more, so the key of a later node is not among them. -/
theorem trail_stepsWithin (closed : problem.Closed arena expanded)
    (picks : ∀ {i : Nat} {n : Node κ σ α}, i ∈ expanded → arena.nodes[i]? = some n →
      problem.ComesBy Picks arena.nodes expanded i n) (nonneg : problem.Nonneg) {fuel : Nat}
    (found : arena.nodes[index]? = some node)
    (comes : problem.ComesBy Picks arena.nodes expanded index node) (enough : index < fuel) :
    ∃ keys, problem.Trail node.key keys (arena.stepsWithin fuel index) node.cost ∧
      ∀ key ∈ keys, ∃ i < index, ∃ n, arena.nodes[i]? = some n ∧ n.key = key ∧
        n.cost ≤ node.cost := by
  induction fuel generalizing index node with
  | zero => exact absurd enough (Nat.not_lt_zero index)
  | succ fuel ih =>
    rcases comes with rfl | ⟨i, done, earlier, before, foundBefore, move, picked, rfl⟩
    · simp only [Arena.stepsWithin, found]
      exact ⟨[], .start, fun _ member => absurd member List.not_mem_nil⟩
    · simp only [Arena.stepsWithin, found, nodeAfter]
      obtain ⟨keys, trail, known⟩ := ih foundBefore (picks done foundBefore) (by omega)
      have grows : before.cost ≤ before.cost + move.cost :=
        LawfulCost.le_add (closed.nonneg foundBefore) (nonneg _ _ picked.first.mem)
      have earlierNodes : ∀ key ∈ before.key :: keys, ∃ j < index, ∃ n,
          arena.nodes[j]? = some n ∧ n.key = key ∧ n.cost ≤ before.cost + move.cost := by
        intro key member
        rcases List.mem_cons.mp member with rfl | member
        · exact ⟨i, earlier, before, foundBefore, rfl, grows⟩
        · obtain ⟨j, less, n, foundN, rfl, le⟩ := known key member
          exact ⟨j, less.trans earlier, n, foundN, rfl,
            LawfulCost.le_trans (closed.nonneg foundN) le grows⟩
      refine ⟨before.key :: keys, .step trail picked fun again => ?_, earlierNodes⟩
      obtain ⟨j, less, n, foundN, same, le⟩ := earlierNodes _ again
      exact closed.falling less foundN found same le

variable [LawfulPriority ε]

/-- Every node was reached from an expanded one, by a move that leads. -/
theorem Visits.leads (visits : problem.Visits arena expanded) (nonneg : problem.Nonneg) {i : Nat}
    {n : Node κ σ α} (found : arena.nodes[i]? = some n) :
    problem.ComesBy Leads arena.nodes expanded i n := by
  induction visits generalizing i n with
  | init =>
    rw [init_eq, Arena.nodes_enter] at found
    split at found
    case isTrue => exact .inl (Option.some.inj found).symm
    case isFalse => simp [Arena.empty] at found
  | @expand arena rest expanded index node visits next _ ih =>
    obtain ⟨-, out⟩ := visits.grown.consistent.next?_eq_some next
    have closed := (visits.closed nonneg).congr out.nodes out.record
    refine closed.comesBy_offerAll [] _ (out.nodes ▸ out.found) rfl nonneg
      (fun _ member => absurd member List.not_mem_nil) (fun j m foundM => ?_) i n found
    rw [out.nodes] at foundM ⊢
    exact (ih foundM).mono id (List.subset_cons_self _ _)

/-- The move by which a live node was reached is picked: what the other moves come to is covered,
for their key by the live node itself. -/
theorem Visits.picks_of_live (visits : problem.Visits arena expanded) (nonneg : problem.Nonneg)
    {i : Nat} {n : Node κ σ α} (live : arena.Live i) (found : arena.nodes[i]? = some n) :
    problem.ComesBy Picks arena.nodes expanded i n := by
  refine (visits.leads nonneg found).imp_right ?_
  rintro ⟨j, done, earlier, before, foundBefore, move, leads, rfl⟩
  refine ⟨j, done, earlier, before, foundBefore, move, ⟨leads, fun other member same => ?_⟩, rfl⟩
  obtain ⟨k, best, covered⟩ :=
    Arena.covers_iff.mp ((visits.closed nonneg).closed done foundBefore member)
  have recorded := (Arena.live_iff_of_found found).mp live
  have onRecord := covered.recorded
  rw [same] at onRecord
  obtain rfl : k = i := Option.some.inj (onRecord.symm.trans recorded)
  obtain rfl := Option.some.inj (covered.found.symm.trans found)
  exact covered.le

/-- So is the move by which an expanded node was reached, since it was live when it was handed
out. -/
theorem Visits.picks_of_expanded (visits : problem.Visits arena expanded)
    (nonneg : problem.Nonneg) {i : Nat} {n : Node κ σ α} (done : i ∈ expanded)
    (found : arena.nodes[i]? = some n) : problem.ComesBy Picks arena.nodes expanded i n := by
  induction visits generalizing i n with
  | init => exact absurd done List.not_mem_nil
  | @expand arena rest expanded index node visits next _ ih =>
    obtain ⟨-, out⟩ := visits.grown.consistent.next?_eq_some next
    have comes {m : Node κ σ α} (foundM : arena.nodes[i]? = some m)
        (comes : problem.ComesBy Picks arena.nodes expanded i m) :
        problem.ComesBy Picks (problem.expand rest index node).nodes (index :: expanded) i n := by
      obtain rfl := Option.some.inj ((nodes_expand_of_handsOut out foundM).symm.trans found)
      exact comes.mono (nodes_expand_of_handsOut out) (List.subset_cons_self _ _)
    rcases List.mem_cons.mp done with rfl | done
    · exact comes out.found (visits.picks_of_live nonneg out.live out.found)
    · obtain ⟨m, foundM, -⟩ := visits.grown.passed done
      exact comes foundM (ih done foundM)

/-- What a search finds lies at the end of a trail from the start. -/
theorem run_found_trail (nonneg : problem.Nonneg) {budget : Option Nat} {steps : List σ} {cost : α}
    (found : (problem.run budget).ending = .found steps cost) :
    ∃ key keys, problem.isGoal key = true ∧ problem.Trail key keys steps cost := by
  obtain ⟨arena, expanded, visits, ends⟩ := run_ends problem budget
  generalize problem.run budget = report at ends found
  cases ends with
  | @found index node rest next goal =>
    obtain ⟨rfl, rfl⟩ : rest.stepsBack index = steps ∧ node.cost = cost := by simpa using found
    obtain ⟨-, out⟩ := visits.grown.consistent.next?_eq_some next
    have closed : problem.Closed rest expanded :=
      (visits.closed nonneg).congr out.nodes out.record
    have comes := visits.picks_of_live nonneg out.live out.found
    -- The steps are read off after the node was handed out, which leaves all nodes in place.
    obtain ⟨keys, trail, -⟩ := trail_stepsWithin closed
      (out.nodes ▸ visits.picks_of_expanded nonneg) nonneg (out.nodes ▸ out.found)
      (out.nodes ▸ comes) (Nat.lt_succ_self index)
    exact ⟨node.key, keys, goal, trail⟩
  | exhausted => cases found
  | gaveUp => cases found
  | unbounded => cases found

end Problem

end ActionPlanning.Search
