import ActionPlanning.Proofs.Search.Cheapest
import Mathlib.Data.Fintype.Prod
import Mathlib.Data.Fintype.Card

/-!
# Every search comes to an end

Keys may be reached again and again, and estimates may lead a search anywhere. But a node enters
the arena only if it is cheaper than every earlier node of its key. So each key has at most as many
nodes as there are costs, and since every node is queued once, that bounds how often a node can be
popped. Nothing is asked of the estimates.

The turns of a search are described here one popped node at a time and without any limit on their
number. A search without a budget stops after finitely many of them, and ends as it reports.

## Main definitions

* `Problem.Turn`: what becomes of an arena when one node is popped and the search goes on.
* `Problem.Pops`: the search comes to an arena after popping some number of nodes.
* `Problem.Stops`: the search goes no further in an arena, and how it ends there.
* `Problem.EndsWithin`: the search stops after a bounded number of pops.

## Main results

* `Problem.run_ne_unbounded`: no search is cut off.
* `Problem.endsWithin`: every search without a budget stops, and ends as it reports.
-/

namespace ActionPlanning.Search.Problem

variable {κ σ α ε : Type} [Ord κ] [Zero α] [Add α] [LE α] [DecidableLE α] [HAdd α ε ε] [Priority ε]

section

variable {problem : Problem κ σ α ε} {arena : Arena κ σ α ε} {expanded : List Nat}
  {node : Node κ σ α}

omit [HAdd α ε ε] [Priority ε] in
/-- Of two nodes of one key the later one is cheaper, so their costs do not compare as equal. -/
theorem Closed.index_eq {i j : Nat} {other : Node κ σ α} (closed : problem.Closed arena expanded)
    (found : arena.nodes[i]? = some node) (foundOther : arena.nodes[j]? = some other)
    (same : node.key = other.key) (le : node.cost ≤ other.cost) (ge : other.cost ≤ node.cost) :
    i = j := by
  rcases Nat.lt_trichotomy i j with before | rfl | after
  · exact absurd le (closed.falling before found foundOther same)
  · rfl
  · exact absurd ge (closed.falling after foundOther found same.symm)

/-- There are no more nodes than there are keys and costs to tell them apart. -/
theorem Grown.size_le [CountedCost α] (grown : problem.Grown arena expanded)
    (closed : problem.Closed arena expanded) (bounded : problem.Bounded) :
    arena.nodes.size ≤ problem.keyBound * UInt64.size := by
  classical
  obtain ⟨mark, marks⟩ := CountedCost.exists_mark (α := α)
  have found (i : Fin arena.nodes.size) : arena.nodes[i.val]? = some arena.nodes[i] :=
    Array.getElem?_eq_getElem i.isLt
  let keys : Finset κ := Finset.univ.image fun i : Fin arena.nodes.size => arena.nodes[i].key
  have few : keys.card ≤ problem.keyBound := by
    rw [← Finset.length_toList]
    refine bounded _ keys.nodup_toList fun key member => ?_
    obtain ⟨i, -, rfl⟩ := Finset.mem_image.mp (Finset.mem_toList.mp member)
    exact ⟨_, _, grown.walk (found i)⟩
  -- A node is told apart from the others by its key and the mark of its cost.
  have apart : Function.Injective fun i : Fin arena.nodes.size =>
      (arena.nodes[i].key, mark arena.nodes[i].cost) := by
    intro i j equal
    obtain ⟨same, marked⟩ := Prod.mk.inj equal
    have nonnegI := closed.nonneg (found i)
    have nonnegJ := closed.nonneg (found j)
    exact Fin.ext (closed.index_eq (found i) (found j) same (marks nonnegI nonnegJ marked)
      (marks nonnegJ nonnegI marked.symm))
  calc arena.nodes.size = (Finset.univ : Finset (Fin arena.nodes.size)).card := by simp
    _ ≤ (keys ×ˢ (Finset.univ : Finset (Fin UInt64.size))).card := by
        refine Finset.card_le_card_of_injOn _ (fun i _ => ?_) apart.injOn
        exact Finset.mem_product.mpr
          ⟨Finset.mem_image_of_mem _ (Finset.mem_univ i), Finset.mem_univ _⟩
    _ = keys.card * UInt64.size := by rw [Finset.card_product, Finset.card_univ, Fintype.card_fin]
    _ ≤ problem.keyBound * UInt64.size := Nat.mul_le_mul_right _ few

end

/-! ## Turns -/

/-- One turn of a search: the popped node is passed over if it is not live, and expanded if it is
live and does not end the search. -/
inductive Turn (problem : Problem κ σ α ε) (arena : Arena κ σ α ε) : Arena κ σ α ε → Prop
  | pass {index : Nat} {frontier : Frontier ε} :
    arena.frontier.pop? = some (index, frontier) → ¬ arena.Live index →
    problem.Turn arena { arena with frontier }
  | expand {index : Nat} {frontier : Frontier ε} {node : Node κ σ α} :
    arena.frontier.pop? = some (index, frontier) → arena.nodes[index]? = some node →
    arena.record[node.key]? = some index → problem.isGoal node.key = false →
    problem.Turn arena (problem.expand { arena with frontier } index node)

/-- A search stops in an arena when nothing is left to pop, or when the popped node is live and
ends the search. -/
inductive Stops (problem : Problem κ σ α ε) (arena : Arena κ σ α ε) : Ending σ α → Prop
  | exhausted : arena.frontier.pop? = none → problem.Stops arena .exhausted
  | found {index : Nat} {frontier : Frontier ε} {node : Node κ σ α} :
    arena.frontier.pop? = some (index, frontier) → arena.nodes[index]? = some node →
    arena.record[node.key]? = some index → problem.isGoal node.key = true →
    problem.Stops arena
      (.found (({ arena with frontier } : Arena κ σ α ε).stepsBack index) node.cost)

/-- The search comes to an arena after popping this many nodes. -/
inductive Pops (problem : Problem κ σ α ε) : Nat → Arena κ σ α ε → Prop
  | init : problem.Pops 0 problem.init
  | turn {pops : Nat} {arena next : Arena κ σ α ε} :
    problem.Pops pops arena → problem.Turn arena next → problem.Pops (pops + 1) next

/-- However the search goes on, it pops no more nodes than the bound says, and it does stop, with
this ending. -/
structure EndsWithin (problem : Problem κ σ α ε) (bound : Nat) (ending : Ending σ α) : Prop where
  within : ∀ {pops arena}, problem.Pops pops arena → pops ≤ bound
  stops : ∃ pops arena, problem.Pops pops arena ∧ problem.Stops arena ending

variable {problem : Problem κ σ α ε} {arena rest : Arena κ σ α ε} {expanded : List Nat}
  {index pops : Nat} {node : Node κ σ α}

/-- What is handed out next was popped after passing over some nodes. -/
theorem Pops.of_nextWithin_eq_some {fuel : Nat} (popped : problem.Pops pops arena)
    (next : arena.nextWithin fuel = some (index, node, rest)) :
    ∃ more last frontier, problem.Pops more last ∧
      last.frontier.pop? = some (index, frontier) ∧ last.nodes[index]? = some node ∧
      last.record[node.key]? = some index ∧ rest = { last with frontier } := by
  induction fuel generalizing arena pops with
  | zero => simp [Arena.nextWithin] at next
  | succ fuel ih =>
    rw [Arena.nextWithin] at next
    split at next
    case h_1 => simp at next
    case h_2 first frontier hpop =>
      split at next
      case h_1 missing =>
        have stale : ¬ arena.Live first := by
          rintro ⟨n, found, -⟩
          simp [found] at missing
        exact ih (popped.turn (.pass hpop stale)) next
      case h_2 n found =>
        split at next
        case isTrue recorded =>
          obtain ⟨rfl, rfl, rfl⟩ : first = index ∧ n = node ∧ { arena with frontier } = rest := by
            simpa using next
          exact ⟨pops, arena, frontier, popped, hpop, found, recorded, rfl⟩
        case isFalse unrecorded =>
          have stale := mt (Arena.live_iff_of_found found).mp unrecorded
          exact ih (popped.turn (.pass hpop stale)) next

/-- The arenas that a run comes to are come to by popping nodes. -/
theorem Visits.exists_pops (visits : problem.Visits arena expanded) :
    ∃ pops, problem.Pops pops arena := by
  induction visits with
  | init => exact ⟨0, .init⟩
  | expand _ next notGoal ih =>
    obtain ⟨pops, popped⟩ := ih
    obtain ⟨more, last, frontier, poppedLast, hpop, found, recorded, rfl⟩ :=
      popped.of_nextWithin_eq_some next
    exact ⟨more + 1, poppedLast.turn (.expand hpop found recorded notGoal)⟩

variable [LawfulPriority ε]

/-- If nothing is handed out any more, then all nodes that waited can be passed over. -/
theorem Pops.of_nextWithin_eq_none {fuel : Nat} (popped : problem.Pops pops arena)
    (consistent : arena.Consistent) (enough : arena.frontier.toList.length ≤ fuel)
    (next : arena.nextWithin fuel = none) :
    ∃ more last, problem.Pops more last ∧ last.frontier.pop? = none := by
  induction fuel generalizing arena pops with
  | zero =>
    have dry := List.length_eq_zero_iff.mp (Nat.le_zero.mp enough)
    exact ⟨pops, arena, popped, Frontier.pop?_eq_none_iff.mpr dry⟩
  | succ fuel ih =>
    rw [Arena.nextWithin] at next
    split at next
    case h_1 dry => exact ⟨pops, arena, popped, dry⟩
    case h_2 index frontier hpop =>
      obtain ⟨first, rfl, takes⟩ := consistent.takes hpop
      obtain ⟨n, found⟩ := takes.exists_found consistent
      rw [takes.length_eq] at enough
      simp only [found] at next
      split at next
      case isTrue => simp at next
      case isFalse unrecorded =>
        have stale := mt (Arena.live_iff_of_found found).mp unrecorded
        exact ih (popped.turn (.pass hpop stale)) takes.consistent
          (Nat.le_of_succ_le_succ enough) next

variable [Std.TransOrd κ] [Std.LawfulEqOrd κ]

/-- A run without a budget that is not cut off stops where it reports to have ended. -/
theorem exists_stops (unlimited : (problem.run none).ending ≠ .unbounded) :
    ∃ pops arena, problem.Pops pops arena ∧ problem.Stops arena (problem.run none).ending := by
  obtain ⟨arena, expanded, visits, ends⟩ := run_ends problem none
  obtain ⟨pops, popped⟩ := visits.exists_pops
  generalize problem.run none = report at ends unlimited
  cases ends with
  | found next goal =>
    obtain ⟨more, last, frontier, poppedLast, hpop, found, recorded, rfl⟩ :=
      popped.of_nextWithin_eq_some next
    exact ⟨more, last, poppedLast, .found hpop found recorded goal⟩
  | exhausted next =>
    have consistent := visits.grown.consistent
    obtain ⟨more, last, poppedLast, dry⟩ :=
      popped.of_nextWithin_eq_none consistent consistent.length_frontier_le next
    exact ⟨more, last, poppedLast, .exhausted dry⟩
  | gaveUp _ _ exceeded => simp [exceeded?] at exceeded
  | unbounded => exact absurd rfl unlimited

variable [LawfulCost α]

/-- What holds of every arena that a search comes to by popping nodes: it has grown like those of a
run, and every node was popped or still waits. -/
theorem Pops.exists_grown (popped : problem.Pops pops arena) (nonneg : problem.Nonneg) :
    ∃ expanded, problem.Grown arena expanded ∧ problem.Closed arena expanded ∧
      pops + arena.frontier.toList.length = arena.nodes.size := by
  induction popped with
  | init => exact ⟨[], .init, .init, Arena.Consistent.empty.length_frontier_offer rfl⟩
  | @turn pops arena next _ turn ih =>
    obtain ⟨expanded, grown, closed, counted⟩ := ih
    cases turn with
    | pass hpop stale =>
      obtain ⟨first, rfl, takes⟩ := grown.consistent.takes hpop
      rw [takes.length_eq, ← Nat.add_assoc, Nat.add_right_comm] at counted
      exact ⟨expanded, grown.pass takes stale, closed.congr rfl rfl, counted⟩
    | @expand _ frontier node hpop found recorded notGoal =>
      obtain ⟨first, rfl, takes⟩ := grown.consistent.takes hpop
      have out := takes.handsOut grown.consistent found recorded
      have closedRest : problem.Closed { arena with frontier } expanded := closed.congr rfl rfl
      rw [takes.length_eq, ← Nat.add_assoc, Nat.add_right_comm] at counted
      refine ⟨first.node :: expanded, (grown.handOut takes.consistent out notGoal).expand found,
        closedRest.expand nonneg found, ?_⟩
      -- The popped node is counted as popped, and each node that enters as one that waits.
      refine (expand_of_offer (fun arena => arena.Consistent ∧
        pops + 1 + arena.frontier.toList.length = arena.nodes.size)
        ⟨takes.consistent, counted⟩ fun arena move _ holds => ?_).2
      exact ⟨holds.1.offer, holds.1.length_frontier_offer holds.2⟩

variable [CountedCost α]

/-- No search is cut off, whatever is estimated: it expands each node at most once. -/
theorem run_ne_unbounded (nonneg : problem.Nonneg) (bounded : problem.Bounded)
    (budget : Option Nat) : (problem.run budget).ending ≠ .unbounded := by
  obtain ⟨arena, expanded, visits, ends⟩ := run_ends problem budget
  have closed := visits.closed nonneg
  have inside : expanded ⊆ List.range arena.nodes.size := fun i member =>
    List.mem_range.mpr (closed.inside i member)
  have length := (List.subperm_of_subset visits.grown.once inside).length_le
  have size := visits.grown.size_le closed bounded
  have positive : 0 < UInt64.size := by decide
  generalize problem.run budget = report at ends
  cases ends with
  | unbounded full =>
    -- It would have expanded more nodes than there are.
    rw [List.length_range, full, fuel, Nat.succ_mul] at length
    omega
  | found => simp
  | exhausted => simp
  | gaveUp => simp

/-- Every search without a budget stops after a bounded number of pops, and ends as it reports. -/
theorem endsWithin (nonneg : problem.Nonneg) (bounded : problem.Bounded) :
    problem.EndsWithin (problem.keyBound * UInt64.size) (problem.run none).ending where
  within popped := by
    obtain ⟨expanded, grown, closed, counted⟩ := popped.exists_grown nonneg
    have size := grown.size_le closed bounded
    omega
  stops := exists_stops (run_ne_unbounded nonneg bounded none)

end ActionPlanning.Search.Problem
