import ActionPlanning.Proofs.Search.Stored
import ActionPlanning.Search.Frontier.Lemmas
import Mathlib.Data.List.ReduceOption

/-!
# The frontier is a first-in-first-out priority queue

Nodes may be added to a frontier and handed out in any order. What a frontier has to answer is said
by a waiting line, in which the nodes stand in the order of their arrival. A new node joins at the
end. The node that is handed out has the least priority of all in the line, and those that joined
before it have a greater one. It leaves the line, and the others close up.

A frontier keeps no such line but a heap, and numbers its nodes as they arrive. Sorted by these
numbers the nodes of the heap are the line. So a frontier answers as the line does, whatever it is
asked, and no node is lost or handed out twice.

Amounts are queued by their total order. Stored as bits there are more kinds of what is not a number
than amounts tell apart; they have their places in the same order.

## Main definitions

* `Request`, `Frontier.answers`: what a frontier is asked, and what it answers.
* `Serves`: the answers of a waiting line.
* `InOrder`: the frontier answers as the waiting line does, and loses nothing.

## Main results

* `Frontier.Queues.push`, `Frontier.Queues.pop`: the frontier keeps a line.
* `Serves.perm`: a waiting line neither loses nor doubles a node.
* `Frontier.inOrder`: the frontier answers as the waiting line does.
* `frontier_serves_in_order`: the same for amounts, however they are stored.
-/

namespace ActionPlanning.Search

variable {α : Type}

/-! ## Waiting lines -/

/-- What a frontier is asked: to add a node with a priority, or to hand one out. -/
inductive Request (α : Type) where
  | push (node : Nat) (priority : α)
  | pop
  deriving Repr

/-- The node that is to be added, if one is. -/
def Request.node? : Request α → Option Nat
  | push node _ => some node
  | pop => none

@[simp] theorem Request.node?_push (node : Nat) (priority : α) :
    (push node priority).node? = some node := rfl

@[simp] theorem Request.node?_pop : (pop : Request α).node? = none := rfl

/-- A node in a waiting line. -/
structure Pushed (α : Type) where
  node : Nat
  priority : α

section

variable [Priority α]

/-- How a waiting line answers requests, and who is left in the line. A pop takes out the node that
has the least priority, and of several such nodes the one that stands before the others. It answers
with no node exactly when nobody waits. -/
inductive Serves : List (Pushed α) → List (Request α) → List (Option Nat) → List (Pushed α) → Prop
  | done (line : List (Pushed α)) : Serves line [] [] line
  | push {line left : List (Pushed α)} {node : Nat} {priority : α} {rest : List (Request α)}
    {answers : List (Option Nat)} : Serves (line ++ [⟨node, priority⟩]) rest answers left →
    Serves line (.push node priority :: rest) answers left
  | nobody {left : List (Pushed α)} {rest : List (Request α)} {answers : List (Option Nat)} :
    Serves [] rest answers left → Serves [] (.pop :: rest) (none :: answers) left
  | first {ahead behind left : List (Pushed α)} {first : Pushed α} {rest : List (Request α)}
    {answers : List (Option Nat)} :
    (∀ other ∈ ahead, ¬ Priority.le other.priority first.priority = true) →
    (∀ other ∈ behind, Priority.le first.priority other.priority = true) →
    Serves (ahead ++ behind) rest answers left →
    Serves (ahead ++ first :: behind) (.pop :: rest) (some first.node :: answers) left

namespace Serves

variable {line left : List (Pushed α)} {requests more : List (Request α)}
  {answers : List (Option Nat)}

/-- A waiting line neither loses nor doubles a node: whoever stood in it or joined was handed out
or is left. -/
theorem perm (serves : Serves line requests answers left) :
    (answers.reduceOption ++ left.map Pushed.node).Perm
      (line.map Pushed.node ++ requests.filterMap Request.node?) := by
  induction serves with
  | done line => simp
  | push _ ih => simpa using ih
  | nobody _ ih => simpa [List.filterMap_cons] using ih
  | @first ahead behind left first rest answers _ _ _ ih =>
    have infront : (first :: (ahead ++ behind)).Perm (ahead ++ first :: behind) :=
      List.perm_middle.symm
    have joined := (infront.map Pushed.node).append_right (rest.filterMap Request.node?)
    simpa [List.filterMap_cons] using (ih.cons first.node).trans (by simpa using joined)

/-- What is answered first does not depend on what is asked later. -/
theorem of_append (serves : Serves line (requests ++ more) answers left) :
    ∃ earlier later between, answers = earlier ++ later ∧ Serves line requests earlier between ∧
      Serves between more later left := by
  induction requests generalizing line answers with
  | nil => exact ⟨[], answers, line, rfl, .done line, serves⟩
  | cons request rest ih =>
    cases serves with
    | push serves =>
      obtain ⟨earlier, later, between, rfl, before, after⟩ := ih serves
      exact ⟨earlier, later, between, rfl, .push before, after⟩
    | nobody serves =>
      obtain ⟨earlier, later, between, rfl, before, after⟩ := ih serves
      exact ⟨none :: earlier, later, between, rfl, .nobody before, after⟩
    | first least earliest serves =>
      obtain ⟨earlier, later, between, rfl, before, after⟩ := ih serves
      exact ⟨some _ :: earlier, later, between, rfl, .first least earliest before, after⟩

/-- Enough pops empty a waiting line. -/
theorem eq_nil_of_pops {pops : Nat}
    (serves : Serves line (List.replicate pops .pop) answers left) (enough : line.length ≤ pops) :
    left = [] := by
  induction pops generalizing line answers with
  | zero =>
    cases serves
    exact List.length_eq_zero_iff.mp (Nat.le_zero.mp enough)
  | succ pops ih =>
    rw [List.replicate_succ] at serves
    cases serves with
    | nobody serves => exact ih serves (Nat.zero_le pops)
    | first _ _ serves =>
      apply ih serves
      simp only [List.length_append, List.length_cons] at enough ⊢
      omega

end Serves

/-! ## The answers of a frontier -/

/-- What a frontier answers to requests: for each pop the node that is handed out, if there is
one. -/
def Frontier.answers : Frontier α → List (Request α) → List (Option Nat)
  | _, [] => []
  | f, .push node priority :: rest => (f.push node priority).answers rest
  | f, .pop :: rest =>
    match f.pop? with
    | none => none :: f.answers rest
    | some (node, g) => some node :: g.answers rest

/-- A frontier that is asked from the start answers as a waiting line does. What it has not handed
out is left in the line, and if it is asked often enough it hands out every node that was added
once. -/
structure InOrder (requests : List (Request α)) : Prop where
  served : ∃ left, Serves [] requests (Frontier.empty.answers requests) left ∧
    ((Frontier.empty.answers requests).reduceOption ++ left.map Pushed.node).Perm
      (requests.filterMap Request.node?)
  drained : (Frontier.empty.answers
      (requests ++ List.replicate (requests.filterMap Request.node?).length .pop)).reduceOption.Perm
    (requests.filterMap Request.node?)

/-- How a node stands in a waiting line. -/
def Waiting.pushed (w : Waiting α) : Pushed α := ⟨w.node, w.priority⟩

/-- A frontier keeps a waiting line: its nodes, sorted by their arrival, are those in the line. -/
structure Frontier.Queues (f : Frontier α) (line : List (Pushed α)) : Prop where
  wellFormed : f.WellFormed
  inLine : ∃ waiting : List (Waiting α), f.toList.Perm waiting ∧
    (waiting.Pairwise fun v w => v.arrival < w.arrival) ∧ waiting.map Waiting.pushed = line

namespace Frontier

variable [LawfulPriority α] {f g : Frontier α} {line : List (Pushed α)} {node : Nat} {priority : α}

omit [LawfulPriority α] in
theorem Queues.empty : (empty : Frontier α).Queues [] :=
  ⟨.empty, [], .refl _, .nil, rfl⟩

/-- A node that is added joins the line at its end. -/
theorem Queues.push (queues : f.Queues line) :
    (f.push node priority).Queues (line ++ [⟨node, priority⟩]) := by
  obtain ⟨waiting, same, ascending, rfl⟩ := queues.inLine
  refine ⟨queues.wellFormed.push, waiting ++ [⟨priority, f.arrivals, node⟩], ?_, ?_, ?_⟩
  · calc (f.push node priority).toList.Perm (⟨priority, f.arrivals, node⟩ :: f.toList) :=
          toList_push queues.wellFormed node priority
      _ |>.Perm (⟨priority, f.arrivals, node⟩ :: waiting) := same.cons _
      _ |>.Perm (waiting ++ [⟨priority, f.arrivals, node⟩]) :=
          (List.perm_append_singleton _ _).symm
  · rw [List.pairwise_append]
    refine ⟨ascending, List.pairwise_singleton _ _, ?_⟩
    intro w member last isLast
    rw [List.mem_singleton.mp isLast]
    exact queues.wellFormed.arrived w (same.mem_iff.mpr member)
  · rw [List.map_append]
    rfl

omit [LawfulPriority α] in
/-- If no node is handed out, then nobody waits. -/
theorem Queues.eq_nil (queues : f.Queues line) (popped : f.pop? = none) : line = [] := by
  obtain ⟨waiting, same, -, rfl⟩ := queues.inLine
  rw [pop?_eq_none_iff.mp popped] at same
  rw [List.nil_perm.mp same]
  rfl

/-- The node that is handed out is the first of those with the least priority, and leaves the
line. -/
theorem Queues.pop (queues : f.Queues line) (popped : f.pop? = some (node, g)) :
    ∃ ahead first behind, line = ahead ++ first :: behind ∧ first.node = node ∧
      (∀ other ∈ ahead, ¬ Priority.le other.priority first.priority = true) ∧
      (∀ other ∈ behind, Priority.le first.priority other.priority = true) ∧
      g.Queues (ahead ++ behind) := by
  obtain ⟨waiting, same, ascending, rfl⟩ := queues.inLine
  obtain ⟨first, named, split, before, wellFormed⟩ := pop?_eq_some queues.wellFormed popped
  have member : first ∈ waiting :=
    same.mem_iff.mp (split.mem_iff.mpr List.mem_cons_self)
  obtain ⟨ahead, behind, rfl⟩ := List.append_of_mem member
  have others : g.toList.Perm (ahead ++ behind) :=
    List.Perm.cons_inv (split.symm.trans (same.trans List.perm_middle))
  obtain ⟨ascendingAhead, ascendingRest, earlier⟩ := List.pairwise_append.mp ascending
  refine ⟨ahead.map Waiting.pushed, first.pushed, behind.map Waiting.pushed, ?_, named, ?_, ?_,
    wellFormed, ahead ++ behind, others, ?_, ?_⟩
  · simp
  · intro other inLine le
    obtain ⟨w, inAhead, rfl⟩ := List.mem_map.mp inLine
    -- Of two nodes with one priority the one that arrived first would have been handed out.
    have arrival := (Waiting.before_iff.mp
      (before w (others.mem_iff.mpr (List.mem_append_left _ inAhead)))).2 le
    exact Nat.not_lt.mpr arrival (earlier w inAhead first List.mem_cons_self)
  · intro other inLine
    obtain ⟨w, inBehind, rfl⟩ := List.mem_map.mp inLine
    exact (Waiting.before_iff.mp
      (before w (others.mem_iff.mpr (List.mem_append_right _ inBehind)))).1
  · rw [List.pairwise_append]
    refine ⟨ascendingAhead, (List.pairwise_cons.mp ascendingRest).2, ?_⟩
    intro v inAhead w inBehind
    exact earlier v inAhead w (List.mem_cons_of_mem _ inBehind)
  · exact List.map_append

/-- A frontier that keeps a line answers as the line does. -/
theorem Queues.serves (queues : f.Queues line) (requests : List (Request α)) :
    ∃ left, Serves line requests (f.answers requests) left := by
  -- Every request leaves the frontier with the line that is left, so both vary in the induction.
  induction requests generalizing f line with
  | nil => exact ⟨line, .done line⟩
  | cons request rest ih =>
    cases request with
    | push node priority =>
      have joined : (f.push node priority).Queues (line ++ [⟨node, priority⟩]) := queues.push
      obtain ⟨left, serves⟩ := ih joined
      exact ⟨left, .push serves⟩
    | pop =>
      rw [answers]
      cases popped : f.pop? with
      | none =>
        obtain rfl := queues.eq_nil popped
        obtain ⟨left, serves⟩ := ih queues
        exact ⟨left, .nobody serves⟩
      | some handedOut =>
        obtain ⟨node, g⟩ := handedOut
        obtain ⟨ahead, first, behind, rfl, rfl, earlier, least, queues⟩ := queues.pop popped
        obtain ⟨left, serves⟩ := ih queues
        exact ⟨left, .first earlier least serves⟩

/-- A frontier answers as the waiting line does and loses nothing, whatever it is asked. -/
theorem inOrder (requests : List (Request α)) : InOrder requests where
  served := by
    obtain ⟨left, serves⟩ := Queues.empty.serves requests
    exact ⟨left, serves, serves.perm⟩
  drained := by
    obtain ⟨left, serves⟩ := Queues.empty.serves
      (requests ++ List.replicate (requests.filterMap Request.node?).length .pop)
    obtain ⟨earlier, later, between, -, before, after⟩ := serves.of_append
    -- No more nodes are in the line than were added, so the pops empty it.
    have enough : between.length ≤ (requests.filterMap Request.node?).length := by
      have counted := before.perm.length_eq
      simp only [List.length_append, List.length_map, List.length_nil] at counted
      omega
    have kept := serves.perm
    rw [after.eq_nil_of_pops enough] at kept
    simpa [List.filterMap_replicate] using kept

end Frontier

end

/-! ## Amounts in a frontier -/

/-- What is not a number waits for infinity, and of the two zeros the negative one comes first. -/
example : (Frontier.empty : Frontier Amount).answers
    [.push 0 (0 / 0), .push 1 (1 / 0), .push 2 0, .push 3 (-0), .push 4 0, .pop, .pop, .pop, .pop,
      .pop, .pop] = [some 3, some 2, some 4, some 1, some 0, none] := by decide +kernel

/-- Whatever a frontier is asked, it answers as a waiting line does that hands out the node of least
priority, and of several such nodes the one that was added first. It answers with no node exactly
when nobody waits, and no node is lost or handed out twice. Priorities may be any amounts, and any
double-precision numbers as they are stored, what is not a number included; both are queued in the
same order. -/
theorem frontier_serves_in_order :
    (∀ requests : List (Request Amount), InOrder requests) ∧
      (∀ requests : List (Request Stored), InOrder requests) ∧
      ∀ a b : Amount, Priority.le (Stored.ofAmount a) (Stored.ofAmount b) = true ↔
        a.totalLe b = true := by
  refine ⟨?_, ?_, ?_⟩
  · exact fun requests => Frontier.inOrder requests
  · exact fun requests => Frontier.inOrder requests
  · exact fun a b => Stored.le_ofAmount_iff

end ActionPlanning.Search
