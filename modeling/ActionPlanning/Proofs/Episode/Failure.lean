import ActionPlanning.Proofs.Episode.Cancellation

/-!
# What a failed call leaves

A call that needs the snapshot can fail because the determiner fails or stops, because it does not
answer in time, or because the episode is cancelled, perhaps by the determiner itself. Whatever the
reason, the call leaves the cache as it found it: nothing is cached, and the limit, the root and
the token of the episode are the same. Neither the observer nor the journal is told anything. All
that the call can have done is to ask the determiner, which may have cancelled something.

So failures do not add up. The next call in an episode that is not cancelled asks the determiner
once, and what it is given is a function of what the determiner does then: it is what it would be
given as the first call of all, if the determiner did that there. What a fetch comes to also depends
on whether the episode is cancelled meanwhile, but that is up to the determiner again, and to the
root.

## Main definitions

* `Session.outcome`: what a fetch comes to by what the determiner does.
* `Turn.FailsBy`: a call is given no snapshot, for some reason.
* `Turn.LeavesNothing`, `Turn.StartsOver`: what is left by such a call, and what a later one meets.
* `FailuresForgotten`: the failed calls of a run leave nothing, and later calls start over.

## Main results

* `Session.fetch_fst_eq_outcome`: what a fetch depends on.
* `failures_forgotten`: every run forgets its failures.
-/

namespace ActionPlanning

section

variable {γ : Type} [TokenLibrary γ] {s s' : Session γ} {t u : Turn γ} {turns : List (Turn γ)}
  {reason : Interruption}

/-! ## The journal -/

section

variable {p : Planner} {determiner : Determiner}

/-- Where no snapshot is obtained, nothing is written to the journal. -/
theorem Session.events_current_of_error (missing : (s.current determiner).value.1 = .error reason) :
    (s.current determiner).events = [] := by
  unfold current at missing ⊢
  cases cached : s.cache.snapshot with
  | some snapshot => rfl
  | none =>
    simp only [cached] at missing ⊢
    by_cases cancelled : s.isCancelled = true
    · rw [if_pos cancelled]
      rfl
    · -- Only a fetch that yields a state is noted.
      rw [if_neg cancelled] at missing ⊢
      rcases fetch : s.fetch determiner with ⟨interruption | state, after⟩
      · rfl
      · rw [fetch] at missing
        exact nomatch missing

namespace Planner

theorem events_onSnapshot_of_error {α : Type}
    (missing : (s.current determiner).value.1 = .error reason)
    (operation : WorldState → Recorded (α × List Observation)) :
    (onSnapshot determiner s operation).events = [] := by
  unfold onSnapshot
  rw [Recorded.events_bind, Session.events_current_of_error missing]
  simp only [missing, Recorded.events_pure, List.append_nil]

/-- A query that is given no snapshot writes nothing to the journal. -/
theorem events_ask_of_error (missing : (s.current determiner).value.1 = .error reason)
    (q : Query) : (p.ask determiner s q).events = [] := by
  cases q with
  | worldState =>
    unfold ask
    rw [Recorded.events_bind, Session.events_current_of_error missing]
    rfl
  | planToGoal actions goal => exact events_onSnapshot_of_error missing _
  | plansToGoals system => exact events_onSnapshot_of_error missing _
  | bestPlan system =>
    have plans : (p.plansToGoals determiner s system).events = [] :=
      events_onSnapshot_of_error missing _
    unfold ask bestPlan
    rw [Recorded.events_bind, plans]
    rfl

end Planner

end

/-! ## What a fetch depends on -/

namespace Session

variable {determiner : Determiner}

/-- What a fetch comes to in an episode under a root, by what the determiner does. -/
def outcome (limit : Option Span) (root : Nat) (answer : Answer) :
    Except Interruption WorldState :=
  match limit with
  | none => unlimited answer.reply
  | some limit =>
    limited limit (answer.cancels.any fun target => target = .episode || root = callerRoot) answer

/-- An episode that is not cancelled is cancelled by a fetch exactly if the determiner cancels the
episode, or the root of the caller and this is the root of the episode. -/
theorem isCancelled_asked (uncancelled : s.isCancelled = false) :
    (s.asked determiner).isCancelled
      = (determiner s.fetches).cancels.any fun target =>
          target = .episode || s.cache.root = callerRoot := by
  have before : ¬ TokenLibrary.isCancelled s.cancellations s.cache.token = true := by
    rw [Bool.not_eq_true]
    exact uncancelled
  rw [Bool.eq_iff_iff, isCancelled, cache_asked, Cache.token, asked,
    TokenLibrary.isCancelled_episode_cancelAny_iff, cancelledByFetch]
  rw [Cache.token] at before
  rw [or_iff_right before]
  cases (determiner s.fetches).cancels with
  | none => simp
  | some target =>
    cases target with
    | episode => simp [targetToken, Cache.token]
    | root => simp [targetToken, eq_comm]

/-- What the caller sees of a fetch in an episode that is not cancelled depends only on the limit,
the root and what the determiner does. -/
theorem fetch_fst_eq_outcome (uncancelled : s.isCancelled = false) :
    (s.fetch determiner).1 = outcome s.cache.limit s.cache.root (determiner s.fetches) := by
  rw [fetch_fst, isCancelled_asked uncancelled]
  rfl

end Session

/-! ## Failed calls, and calls after them -/

namespace Turn

/-- The call needs the snapshot of the episode, and there is none for a reason. -/
def FailsBy (t : Turn γ) (reason : Interruption) : Prop := t.IsQuery ∧ t.obtained = .error reason

/-- A call that fails for a reason leaves the cache as it was, with nothing cached, after asking the
determiner at most. There is no trace of an answer: the caller is told the reason only, and neither
the observer nor the journal is told anything. -/
structure LeavesNothing (t : Turn γ) (reason : Interruption) : Prop where
  after : t.after = if t.needsFetch then t.before.asked t.determiner else t.before
  uncached : t.after.cache.snapshot = none
  token : t.after.cache.token = t.token
  root : t.after.cache.root = t.before.cache.root
  limit : t.after.cache.limit = t.before.cache.limit
  answer : ∀ q, t.call = .query q → (t.reaction q).answer = .error reason
  seen : ∀ q, t.call = .query q → (t.reaction q).seen = []
  events : ∀ q, t.call = .query q → (t.planner.ask t.determiner t.before q).events = []

/-- The call as the first of all, under the limit and the root of a session and with a determiner
of its own. -/
def afresh (u : Turn γ) (s : Session γ) (serial : Nat) (determiner : Determiner) : Turn γ :=
  { u with determiner, before := .fresh s.cache.limit s.cache.root serial }

/-- A call starts over: it asks the determiner once, is given what that comes to under the limit and
the root of a session, which is what it would be given as the first call of all, if the determiner
did there what it does now, and caches just that. -/
structure StartsOver (u : Turn γ) (s : Session γ) : Prop where
  fetches : u.after.fetches = u.before.fetches + 1
  outcome : u.state
    = Session.outcome s.cache.limit s.cache.root (u.determiner u.before.fetches)
  state : ∀ serial determiner, determiner 0 = u.determiner u.before.fetches →
    u.state = (u.afresh s serial determiner).state
  cached : u.after.cache.snapshot.map Snapshot.state = u.state.toOption

/-- All that a failed call changes is that the determiner has been asked, if a fetch was due. -/
theorem FailsBy.after_eq (fails : t.FailsBy reason) :
    t.after = if t.needsFetch then t.before.asked t.determiner else t.before := by
  obtain ⟨isQuery, missing⟩ := fails
  have obtains := t.obtains_after isQuery
  rw [missing] at obtains
  generalize t.after = last at obtains ⊢
  cases obtains with
  | refused uncached cancelled => rw [if_neg (by simp [needsFetch_iff, cancelled])]
  | failed uncached uncancelled =>
    rw [if_pos (needsFetch_iff.mpr ⟨isQuery, uncached, uncancelled⟩)]

theorem FailsBy.leavesNothing (fails : t.FailsBy reason) : t.LeavesNothing reason where
  after := fails.after_eq
  uncached := by
    rw [snapshot_after_query fails.1, fails.2]
    rfl
  token := by
    obtain ⟨q, call⟩ := fails.1
    exact t.token_after (by simp [call])
  root := t.bounds_after.2
  limit := t.bounds_after.1
  answer q _ := by rw [reaction_of_error fails.2]
  seen q _ := by rw [reaction_of_error fails.2]
  events q _ := Planner.events_ask_of_error fails.2 q

/-- A call that needs a fetch is given what the fetch comes to. -/
theorem state_of_needsFetch (isQuery : u.IsQuery) (uncached : u.before.cache.snapshot = none)
    (uncancelled : u.before.isCancelled = false) :
    u.state = Session.outcome u.before.cache.limit u.before.cache.root
      (u.determiner u.before.fetches) := by
  rw [← Session.fetch_fst_eq_outcome uncancelled]
  have obtains := u.obtains_after isQuery
  unfold state
  generalize u.after = last, u.obtained = outcome at obtains ⊢
  cases obtains with
  | cached cached => exact nomatch uncached.symm.trans cached
  | refused _ cancelled => exact nomatch uncancelled.symm.trans cancelled
  | failed _ _ outcome | fetched _ _ outcome => exact outcome.symm

/-- A call that finds nothing cached in an episode that is not cancelled starts over. -/
theorem startsOver (isQuery : u.IsQuery) (uncached : u.before.cache.snapshot = none)
    (uncancelled : u.before.isCancelled = false) (limit : u.before.cache.limit = s.cache.limit)
    (root : u.before.cache.root = s.cache.root) : u.StartsOver s where
  fetches := by
    rw [u.fetches_after, if_pos (u.needsFetch_iff.mpr ⟨isQuery, uncached, uncancelled⟩)]
  outcome := by
    rw [u.state_of_needsFetch isQuery uncached uncancelled, limit, root]
  state serial determiner same := by
    rw [u.state_of_needsFetch isQuery uncached uncancelled, limit, root,
      (u.afresh s serial determiner).state_of_needsFetch isQuery rfl
        (TokenLibrary.isCancelled_untouched _)]
    exact congrArg _ same.symm
  cached := by rw [snapshot_after_query isQuery, toOption_state]

end Turn

/-! ## Runs -/

/-- The failed calls of a run leave nothing, and the next call after one of them that is made in an
episode that is not cancelled starts over, no matter how many calls fail in between. -/
structure FailuresForgotten (s : Session γ) (run : List (Turn γ)) : Prop where
  failed : ∀ t ∈ run, ∀ reason, t.FailsBy reason → t.LeavesNothing reason
  next : ∀ {earlier t between u later reason}, run = earlier ++ t :: (between ++ u :: later) →
    t.FailsBy reason → (∀ v ∈ between, v.before.isCancelled = true ∨ ¬ v.Succeeds) →
    u.IsQuery → u.before.isCancelled = false → u.StartsOver s

namespace Run

/-- Nothing gets cached by calls that are made in cancelled episodes or fail. -/
theorem uncached_finish (run : Run s turns) (uncached : s.cache.snapshot = none)
    (fail : ∀ t ∈ turns, t.before.isCancelled = true ∨ ¬ t.Succeeds) :
    (finish s turns).cache.snapshot = none :=
  (run.keeps (·.cache.snapshot = none) uncached
    fun t member uncached => t.uncached_after uncached (fail t member)).1

theorem failuresForgotten (run : Run s turns) : FailuresForgotten s turns where
  failed _ _ _ fails := fails.leavesNothing
  next := by
    rintro earlier t between u later reason rfl fails failBetween isQuery uncancelled
    have runRest := run.rest_of_append
    have uncached : u.before.cache.snapshot = none := by
      rw [runRest.before_eq]
      exact (append_iff.mp runRest).1.uncached_finish fails.leavesNothing.uncached failBetween
    -- The limit and the root are those of the beginning, whatever has been called since.
    rw [List.append_cons, ← List.append_assoc] at run
    have sinceStart := (append_iff.mp run).1
    refine u.startsOver isQuery uncached uncancelled ?_ ?_
    · rw [run.before_eq, sinceStart.limit_finish]
    · rw [run.before_eq, sinceStart.root_finish]

end Run

/-- From whatever session on, whatever is called on a planner and whatever its determiner does, a
call that fails leaves nothing cached, the same token, root and limit, and no trace with the
observer or in the journal; and the next call in an episode that is not cancelled starts one fetch,
and what that comes to is a function of what the determiner does then. -/
theorem failures_forgotten (p : Planner) (s : Session γ) (requests : List Request) :
    FailuresForgotten s (p.turns s requests) :=
  (p.run_turns s requests).failuresForgotten

end

namespace Outage

def state : WorldState := ⟨∅, default⟩

/-- Stops without an answer at first, then cancels the episode and does not come back, and only then
reports a state. -/
def determiner : Determiner :=
  .script { reply := .crash }
    [{ cancels := some .episode, reply := .silence }, { reply := .state state }]

/-- The session before any call. -/
def start : Session := .fresh (some ⟨50⟩) 0 0

/-- A call in an episode, after some fetches and cancellations. -/
def turn (serial fetches : Nat) (tokens : List Token) (call : Call) : Turn :=
  ⟨{}, determiner, ⟨{ start.cache with serial }, ⟨tokens⟩, fetches⟩, call⟩

/-- The first call for the state. -/
def first : Turn := turn 0 0 [] (.query .worldState)

/-- Two more in the same episode, and a new episode. -/
def between : List Turn :=
  [turn 0 1 [] (.query .worldState), turn 0 2 [.episode 0 0] (.query .worldState),
    turn 0 2 [.episode 0 0] .newEpisode]

/-- The last call for the state. -/
def last : Turn := turn 1 2 [.episode 0 0] (.query .worldState)

theorem run_eq :
    Planner.run {} determiner start
        (.replicate 3 (.query .worldState) ++ [.newEpisode, .query .worldState])
      = [] ++ first :: (between ++ last :: []) := rfl

end Outage

open Outage in
/-- The first call finds the determiner gone, the second cancelled and the third is refused; the
fourth is given what the determiner reports then, as one that works would have done at once. -/
theorem failures_forgotten_outage :
    first.LeavesNothing (.failed (.stateUnavailable .noAnswer)) ∧ last.StartsOver start ∧
      last.state = .ok state ∧ last.state = (last.afresh start 0 (.static state)).state := by
  obtain ⟨failed, next⟩ := failures_forgotten {} start
    ((.replicate 3 (.query .worldState) ++ [.newEpisode, .query .worldState]).map
      fun call => ⟨call, determiner⟩)
  have fails : first.FailsBy (.failed (.stateUnavailable .noAnswer)) := ⟨⟨_, rfl⟩, rfl⟩
  have failsAgain : ∀ v ∈ between, v.before.isCancelled = true ∨ ¬ v.Succeeds := by
    intro v member
    simp only [between, List.mem_cons, List.not_mem_nil, or_false] at member
    rcases member with rfl | rfl | rfl
    · refine .inr fun succeeds => ?_
      obtain ⟨-, snapshot, given⟩ := Turn.succeeds_iff.mp succeeds
      exact nomatch given
    · exact .inl rfl
    · exact .inl rfl
  have startsOver := next run_eq fails failsAgain ⟨_, rfl⟩ rfl
  exact ⟨failed first List.mem_cons_self _ fails, startsOver, startsOver.outcome,
    startsOver.state 0 _ rfl⟩

end ActionPlanning
