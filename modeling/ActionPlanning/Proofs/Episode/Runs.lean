import ActionPlanning.Proofs.Episode.Calls

/-!
# Runs of calls

A run is a list of turns of which each finds what the one before it left. The calls of a run are
made one after another, so a call that does not return is the last of its run. What a run does to
a session follows from what each turn does, by induction on the run.

The world outside is the determiner. A request is a call together with the determiner at the time
of the call; usually that is the same for all calls of a run.

## Main definitions

* `Run`, `finish`: turns that follow each other, and the session they lead to.
* `Planner.turns`, `Planner.run`: the turns of requests, and of calls with one determiner.
* `SameEpisode`, `OpensEpisode`: where the episodes of a run begin and end.

## Main results

* `Turn.after_of_query`: what a query leaves.
* `Turn.fetches_after`, `Turn.cancellations_after`, `Turn.snapshot_after_eq_none_iff`: what a turn
  changes.
* `Run.keeps`: what every turn keeps is kept by a run.
* `Run.fetches_finish`, `Run.isCancelled_finish_iff`, `Run.snapshot_finish_eq_none_iff`: what a run
  changes.
-/

namespace ActionPlanning

/-! ## What a turn changes -/

namespace Turn

variable {γ : Type} [TokenLibrary γ] {t : Turn γ} {q : Query} {snapshot : Snapshot}

/-- A query leaves the session after the fetch, if one was due, and caches what it was given. -/
theorem after_of_query (isQuery : t.IsQuery) :
    t.after = { (if t.needsFetch then t.before.asked t.determiner else t.before) with
      cache := { t.before.cache with snapshot := t.obtained.toOption } } := by
  have due := t.needsFetch_iff
  have obtains := t.obtains_after isQuery
  generalize t.after = last, t.obtained = outcome at obtains ⊢
  cases obtains with
  | cached cached =>
    rw [if_neg (by simp [due, cached]), Except.toOption, ← cached]
  | refused uncached cancelled =>
    rw [if_neg (by simp [due, cancelled]), Except.toOption, ← uncached]
  | failed uncached uncancelled =>
    rw [if_pos (due.mpr ⟨isQuery, uncached, uncancelled⟩), Except.toOption, ← uncached,
      ← Session.cache_asked]
  | fetched uncached uncancelled =>
    rw [if_pos (due.mpr ⟨isQuery, uncached, uncancelled⟩)]
    rfl

/-- The limit and the root stay. -/
theorem bounds_after (t : Turn γ) :
    t.after.cache.limit = t.before.cache.limit ∧ t.after.cache.root = t.before.cache.root := by
  cases call : t.call with
  | query q => rw [after_of_query ⟨q, call⟩]; exact ⟨rfl, rfl⟩
  | newEpisode | cancelEpisode | cancel token => simp only [after, call]; exact ⟨rfl, rfl⟩

/-- Only a new episode has another token. -/
theorem serial_after (t : Turn γ) :
    t.after.cache.serial
      = t.before.cache.serial + if t.call.startsEpisode then 1 else 0 := by
  cases call : t.call with
  | query q => rw [after_of_query ⟨q, call⟩]; rfl
  | newEpisode | cancelEpisode | cancel token => simp only [after, call]; rfl

/-- The token stays until a new episode. -/
theorem token_after (same : t.call ≠ .newEpisode) : t.after.cache.token = t.token := by
  have serial := t.serial_after
  cases call : t.call with
  | newEpisode => exact absurd call same
  | query | cancelEpisode | cancel =>
    simp only [call, Call.startsEpisode, Bool.false_eq_true, if_false, Nat.add_zero] at serial
    rw [token, Cache.token, Cache.token, t.bounds_after.2, serial]

/-- A fetch is started exactly by a call that needs one. -/
theorem fetches_after (t : Turn γ) :
    t.after.fetches = t.before.fetches + if t.needsFetch then 1 else 0 := by
  cases call : t.call with
  | query q =>
    rw [after_of_query ⟨q, call⟩]
    split <;> simp
  | newEpisode | cancelEpisode | cancel token => simp only [after, needsFetch, call]; rfl

theorem fetches_after_of_idle (idle : ¬ t.needsFetch = true) :
    t.after.fetches = t.before.fetches := by
  rw [fetches_after, if_neg idle, Nat.add_zero]

/-- A turn cancels one token or none. -/
theorem cancellations_after (t : Turn γ) :
    t.after.cancellations = TokenLibrary.cancelAny t.before.cancellations t.cancelled := by
  cases call : t.call with
  | query q =>
    rw [after_of_query ⟨q, call⟩]
    simp only [cancelled, call]
    split <;> rfl
  | newEpisode | cancelEpisode | cancel token => simp only [after, cancelled, call]; rfl

/-- After a query exactly the snapshot that it was given is cached. -/
theorem snapshot_after_query (isQuery : t.IsQuery) :
    t.after.cache.snapshot = t.obtained.toOption := by
  rw [after_of_query isQuery]

/-- A cancellation leaves what is cached. -/
theorem snapshot_after_of_not_query (notQuery : ¬ t.IsQuery) (same : t.call ≠ .newEpisode) :
    t.after.cache.snapshot = t.before.cache.snapshot := by
  cases call : t.call with
  | query q => exact absurd ⟨q, call⟩ notQuery
  | newEpisode => exact absurd call same
  | cancelEpisode | cancel token => simp only [after, call]; rfl

/-- What is cached is given to every call that needs it. -/
theorem obtained_of_cached (cached : t.before.cache.snapshot = some snapshot) :
    t.obtained = .ok snapshot := by
  simp only [obtained, Session.current, cached]
  rfl

/-- What is cached stays cached until a new episode. -/
theorem snapshot_after_of_cached (cached : t.before.cache.snapshot = some snapshot)
    (same : t.call ≠ .newEpisode) : t.after.cache.snapshot = some snapshot := by
  by_cases isQuery : t.IsQuery
  · rw [snapshot_after_query isQuery, obtained_of_cached cached]
    rfl
  · rw [snapshot_after_of_not_query isQuery same, cached]

/-- Where nothing is cached, something is afterwards exactly if the call is answered. -/
theorem snapshot_after_eq_none_iff (uncached : t.before.cache.snapshot = none)
    (same : t.call ≠ .newEpisode) : t.after.cache.snapshot = none ↔ ¬ t.Succeeds := by
  rw [succeeds_iff]
  by_cases isQuery : t.IsQuery
  · rw [snapshot_after_query isQuery]
    cases t.obtained <;> simp [isQuery, Except.toOption]
  · simp [snapshot_after_of_not_query isQuery same, uncached, isQuery]

theorem snapshot_after_newEpisode (opens : t.call = .newEpisode) :
    t.after.cache.snapshot = none := by
  simp only [after, opens]
  rfl

end Turn

/-! ## Runs -/

section

variable {γ : Type} [TokenLibrary γ]

/-- Turns of which each finds what the one before it left, the first of them a given session. -/
inductive Run : Session γ → List (Turn γ) → Prop
  | nil (s : Session γ) : Run s []
  | cons {t : Turn γ} {rest : List (Turn γ)} : Run t.after rest → Run t.before (t :: rest)

/-- The session that turns lead to. -/
def finish (s : Session γ) : List (Turn γ) → Session γ
  | [] => s
  | t :: rest => finish t.after rest

/-- No new episode starts in these turns. -/
def SameEpisode (turns : List (Turn γ)) : Prop := ∀ t ∈ turns, t.call ≠ .newEpisode

/-- An episode starts after these turns: there are none, or the last one starts it. -/
def OpensEpisode (turns : List (Turn γ)) : Prop := ∀ t ∈ turns.getLast?, t.call = .newEpisode

variable {s : Session γ} {t : Turn γ} {first rest turns : List (Turn γ)}

@[simp] theorem finish_nil : finish s [] = s := rfl

@[simp] theorem finish_cons : finish s (t :: rest) = finish t.after rest := rfl

theorem finish_append : finish s (first ++ rest) = finish (finish s first) rest := by
  induction first generalizing s with
  | nil => rfl
  | cons t first ih => exact ih

namespace Run

/-- A run can be cut at any place. -/
theorem append_iff : Run s (first ++ rest) ↔ Run s first ∧ Run (finish s first) rest := by
  induction first generalizing s with
  | nil => exact ⟨fun run => ⟨.nil s, run⟩, And.right⟩
  | cons t first ih =>
    constructor
    · rintro ⟨run⟩
      obtain ⟨runFirst, runRest⟩ := ih.mp ‹_›
      exact ⟨.cons runFirst, runRest⟩
    · rintro ⟨⟨runFirst⟩, runRest⟩
      exact .cons (ih.mpr ⟨‹_›, runRest⟩)

theorem cons_iff : Run s (t :: rest) ↔ t.before = s ∧ Run t.after rest := by
  constructor
  · rintro ⟨run⟩
    exact ⟨rfl, ‹_›⟩
  · rintro ⟨rfl, run⟩
    exact .cons run

/-- Each turn finds what the turns before it left. -/
theorem before_eq (run : Run s (first ++ t :: rest)) : t.before = finish s first :=
  (cons_iff.mp (append_iff.mp run).2).1

theorem rest_of_append (run : Run s (first ++ t :: rest)) : Run t.after rest :=
  (cons_iff.mp (append_iff.mp run).2).2

/-- What every turn keeps holds wherever the run comes to. -/
theorem keeps (run : Run s turns) (kept : Session γ → Prop) (start : kept s)
    (step : ∀ t ∈ turns, kept t.before → kept t.after) :
    kept (finish s turns) ∧ ∀ t ∈ turns, kept t.before := by
  induction run with
  | nil => exact ⟨start, nofun⟩
  | @cons t rest run ih =>
    obtain ⟨last, between⟩ := ih (step t List.mem_cons_self start) fun u member =>
      step u (List.mem_cons_of_mem t member)
    refine ⟨last, fun u member => ?_⟩
    rcases List.mem_cons.mp member with rfl | member
    · exact start
    · exact between u member

/-- The fetches started in a run are the calls that needed one. -/
theorem fetches_finish (run : Run s turns) :
    (finish s turns).fetches = s.fetches + turns.countP Turn.needsFetch := by
  induction run with
  | nil => rfl
  | @cons t rest run ih =>
    rw [finish_cons, ih, t.fetches_after, List.countP_cons]
    omega

/-- The token of an episode counts as cancelled in the end exactly if it did before, or it or its
root was cancelled in the turns. -/
theorem isCancelled_finish_iff {root serial : Nat} (run : Run s turns) :
    TokenLibrary.isCancelled (finish s turns).cancellations (.episode root serial) = true ↔
      TokenLibrary.isCancelled s.cancellations (.episode root serial) = true ∨
        ∃ t ∈ turns,
          t.cancelled = some (.episode root serial) ∨ t.cancelled = some (.root root) := by
  induction run with
  | nil => simp
  | @cons t rest run ih =>
    rw [finish_cons, ih, t.cancellations_after, TokenLibrary.isCancelled_episode_cancelAny_iff,
      or_assoc]
    simp only [List.mem_cons, exists_eq_or_imp]

theorem limit_finish (run : Run s turns) : (finish s turns).cache.limit = s.cache.limit :=
  (run.keeps (·.cache.limit = s.cache.limit) rfl
    fun t _ same => t.bounds_after.1.trans same).1

theorem root_finish (run : Run s turns) : (finish s turns).cache.root = s.cache.root :=
  (run.keeps (·.cache.root = s.cache.root) rfl
    fun t _ same => t.bounds_after.2.trans same).1

/-- The token stays within an episode. -/
theorem token_finish (run : Run s turns) (same : SameEpisode turns) :
    (finish s turns).cache.token = s.cache.token :=
  (run.keeps (·.cache.token = s.cache.token) rfl
    fun t member => (t.token_after (same t member)).trans).1

/-- What is cached stays cached within an episode, and every call finds it. -/
theorem cached {snapshot : Snapshot} (run : Run s turns) (same : SameEpisode turns)
    (cached : s.cache.snapshot = some snapshot) :
    (finish s turns).cache.snapshot = some snapshot ∧
      ∀ t ∈ turns, t.before.cache.snapshot = some snapshot :=
  run.keeps (·.cache.snapshot = some snapshot) cached
    fun t member cached => t.snapshot_after_of_cached cached (same t member)

/-- From the start of an episode on, nothing is cached exactly as long as no call is answered. -/
theorem snapshot_finish_eq_none_iff (run : Run s turns) (same : SameEpisode turns)
    (uncached : s.cache.snapshot = none) :
    (finish s turns).cache.snapshot = none ↔ ∀ t ∈ turns, ¬ t.Succeeds := by
  induction run with
  | nil => simpa using uncached
  | @cons t rest run ih =>
    obtain ⟨sameFirst, sameRest⟩ := List.forall_mem_cons.mp same
    have step := t.snapshot_after_eq_none_iff uncached sameFirst
    rw [finish_cons, List.forall_mem_cons]
    cases after : t.after.cache.snapshot with
    | none => rw [ih sameRest after, and_iff_right (step.mp after)]
    | some snapshot =>
      -- What is cached now stays, and only an answered call has cached it.
      have succeeds : ¬ ¬ t.Succeeds := mt step.mpr (by simp [after])
      simp [(run.cached sameRest after).1, succeeds]

end Run

/-- Where an episode starts, nothing is cached. -/
theorem snapshot_finish_of_opensEpisode (opens : OpensEpisode turns)
    (uncached : s.cache.snapshot = none) : (finish s turns).cache.snapshot = none := by
  rcases List.eq_nil_or_concat turns with rfl | ⟨earlier, t, rfl⟩
  · exact uncached
  · rw [List.concat_eq_append, finish_append]
    exact Turn.snapshot_after_newEpisode (opens t (by simp))

end

/-! ## The turns of a list of calls -/

/-- A session in which nothing has happened: nothing is cached, cancelled or fetched. -/
def Session.fresh {γ : Type} [TokenLibrary γ] (limit : Option Span) (root serial : Nat) :
    Session γ :=
  { cache := { limit, root, serial } }

/-- A call, and the determiner at the time. -/
structure Request where
  call : Call
  determiner : Determiner

namespace Planner

variable {γ : Type} [TokenLibrary γ]

/-- The turns that requests take, up to the first call that does not return. -/
def turns (p : Planner) : Session γ → List Request → List (Turn γ)
  | _, [] => []
  | s, request :: rest =>
    let t : Turn γ := ⟨p, request.determiner, s, request.call⟩
    t :: if t.returns then p.turns t.after rest else []

/-- The turns that calls take with one determiner. -/
def run (p : Planner) (determiner : Determiner) (s : Session γ) (calls : List Call) :
    List (Turn γ) :=
  p.turns s (calls.map fun call => ⟨call, determiner⟩)

theorem run_turns (p : Planner) (s : Session γ) (requests : List Request) :
    Run s (p.turns s requests) := by
  induction requests generalizing s with
  | nil => exact .nil s
  | cons request rest ih =>
    rw [turns]
    refine Run.cons_iff.mpr ⟨rfl, ?_⟩
    split
    · exact ih _
    · exact .nil _

end Planner

end ActionPlanning
