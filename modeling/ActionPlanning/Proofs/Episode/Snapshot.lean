import ActionPlanning.Proofs.Episode.Runs

/-!
# One snapshot per episode

Whatever is called on a planner, and whatever the determiner does meanwhile, the plans of one
episode never mix two observations of the world. The first call of an episode that is answered has
started a fetch, and all later calls of the episode work on what that fetch brought, without another
fetch. A new episode starts over: snapshots are numbered by their fetches, and those of a later
episode have higher numbers.

## Main definitions

* `Turn.Fetched`: a call that started the fetch which brought a snapshot.
* `OneSnapshotPerEpisode`: what a run has to satisfy so that its episodes do not mix snapshots.

## Main results

* `one_snapshot_per_episode`: the runs of every planner satisfy it.
-/

namespace ActionPlanning

section

variable {γ : Type} [TokenLibrary γ]

/-- The call starts a fetch, and the snapshot is what the determiner reports then. -/
structure Turn.Fetched (t : Turn γ) (snapshot : Snapshot) : Prop where
  number : snapshot.fetch = t.before.fetches
  starts : t.after.fetches = t.before.fetches + 1
  reports : (t.determiner snapshot.fetch).reply = .state snapshot.state

/-- The episodes of a run do not mix snapshots, and nothing is fetched without need. -/
structure OneSnapshotPerEpisode (s : Session γ) (run : List (Turn γ)) : Prop where
  /-- Within an episode all calls that are answered use the snapshot that the first of them fetched,
  and no fetch is started after that. -/
  shared : ∀ {earlier failed first rest later},
    run = earlier ++ (failed ++ first :: rest) ++ later → OpensEpisode earlier →
    SameEpisode (failed ++ first :: rest) → (∀ t ∈ failed, ¬ t.Succeeds) → first.Succeeds →
    ∃ snapshot, first.Fetched snapshot ∧ (∀ t ∈ first :: rest, t.Succeeds → t.Uses snapshot) ∧
      ∀ t ∈ rest, t.after.fetches = t.before.fetches
  /-- A snapshot that was used before a new episode is not used after it. -/
  renewed : ∀ {earlier opening later}, run = earlier ++ opening :: later →
    opening.call = .newEpisode → ∀ t ∈ earlier, ∀ u ∈ later, ∀ snapshot, t.Uses snapshot →
    ¬ u.Uses snapshot
  /-- The fetches are as many as the calls that needed one. -/
  counted : (finish s run).fetches = s.fetches + run.countP Turn.needsFetch

/-- What is cached was fetched since a number of fetches was reached. -/
structure Session.CachedSince (number : Nat) (s : Session γ) : Prop where
  reached : number ≤ s.fetches
  cached : ∀ {snapshot}, s.cache.snapshot = some snapshot →
    number ≤ snapshot.fetch ∧ snapshot.fetch < s.fetches

theorem Session.cachedSince_of_uncached {s : Session γ} {number : Nat}
    (uncached : s.cache.snapshot = none) (reached : number ≤ s.fetches) : s.CachedSince number :=
  ⟨reached, fun cached => nomatch uncached.symm.trans cached⟩

namespace Turn

variable {t : Turn γ} {snapshot : Snapshot} {number : Nat}

/-- A call that is answered though nothing was cached has fetched the snapshot it uses, which is
cached from then on. -/
theorem exists_fetched (uncached : t.before.cache.snapshot = none) (succeeds : t.Succeeds) :
    ∃ snapshot, t.Fetched snapshot ∧ t.Uses snapshot ∧
      t.after.cache.snapshot = some snapshot := by
  obtain ⟨isQuery, snapshot, given⟩ := succeeds_iff.mp succeeds
  have uses : t.Uses snapshot := uses_iff.mpr ⟨isQuery, given⟩
  have obtains := t.obtains_after isQuery
  rw [given] at obtains
  generalize after : t.after = last at obtains
  cases obtains with
  | cached cached => exact nomatch uncached.symm.trans cached
  | fetched _ _ reported =>
    have starts : t.after.fetches = t.before.fetches + 1 := by rw [after]; simp
    exact ⟨_, ⟨rfl, starts, Session.reply_of_fetch reported⟩, uses, rfl⟩

/-- A call uses what is cached, and then starts no fetch. -/
theorem uses_of_cached (cached : t.before.cache.snapshot = some snapshot) :
    (t.Succeeds → t.Uses snapshot) ∧ t.after.fetches = t.before.fetches := by
  constructor
  · exact fun succeeds => uses_iff.mpr ⟨(succeeds_iff.mp succeeds).1, obtained_of_cached cached⟩
  · exact fetches_after_of_idle (by simp [needsFetch_iff, cached])

theorem cachedSince_after (since : t.before.CachedSince number) : t.after.CachedSince number := by
  have le : t.before.fetches ≤ t.after.fetches := by rw [fetches_after]; exact Nat.le_add_right _ _
  refine ⟨Nat.le_trans since.reached le, fun {snapshot} cachedAfter => ?_⟩
  by_cases opens : t.call = .newEpisode
  · exact nomatch (snapshot_after_newEpisode opens).symm.trans cachedAfter
  cases before : t.before.cache.snapshot with
  | some cached =>
    have same := (snapshot_after_of_cached before opens).symm.trans cachedAfter
    obtain ⟨atLeast, below⟩ := since.cached (before.trans same)
    exact ⟨atLeast, Nat.lt_of_lt_of_le below le⟩
  | none =>
    have succeeds : t.Succeeds := Classical.byContradiction fun fails =>
      nomatch ((snapshot_after_eq_none_iff before opens).mpr fails).symm.trans cachedAfter
    obtain ⟨fetched, isFetched, -, cached⟩ := exists_fetched before succeeds
    obtain rfl := Option.some.inj (cached.symm.trans cachedAfter)
    rw [isFetched.number, isFetched.starts]
    exact ⟨since.reached, Nat.lt_succ_self _⟩

/-- What a call uses is cached afterwards. -/
theorem Uses.cached (uses : t.Uses snapshot) : t.after.cache.snapshot = some snapshot := by
  obtain ⟨isQuery, given⟩ := uses_iff.mp uses
  rw [snapshot_after_query isQuery, given]
  rfl

end Turn

namespace Run

variable {s : Session γ} {turns : List (Turn γ)} {number : Nat}

theorem fetches_le (run : Run s turns) : s.fetches ≤ (finish s turns).fetches := by
  rw [run.fetches_finish]
  exact Nat.le_add_right _ _

/-- The snapshots that are used in a run have numbers between those at its ends. -/
theorem fetch_of_uses (run : Run s turns) (since : s.CachedSince number) {t : Turn γ}
    (member : t ∈ turns) {snapshot : Snapshot} (uses : t.Uses snapshot) :
    number ≤ snapshot.fetch ∧ snapshot.fetch < (finish s turns).fetches := by
  induction run with
  | nil => exact absurd member List.not_mem_nil
  | @cons u rest run ih =>
    rcases List.mem_cons.mp member with rfl | member
    · -- What the first call uses is cached after it, and the fetches never get fewer.
      obtain ⟨atLeast, below⟩ := (Turn.cachedSince_after since).cached uses.cached
      exact ⟨atLeast, Nat.lt_of_lt_of_le below run.fetches_le⟩
    · exact ih (Turn.cachedSince_after since) member

/-- A run that starts with nothing cached does not mix snapshots. -/
theorem oneSnapshotPerEpisode (run : Run s turns) (uncached : s.cache.snapshot = none) :
    OneSnapshotPerEpisode s turns where
  shared := by
    rintro earlier failed first rest later rfl opens same fail succeeds
    obtain ⟨runEarlier, runEpisode⟩ := append_iff.mp (append_iff.mp run).1
    obtain ⟨runFailed, -⟩ := append_iff.mp runEpisode
    have sameFailed : SameEpisode failed := fun t member =>
      same t (List.mem_append_left _ member)
    have sameRest : SameEpisode rest := fun t member =>
      same t (List.mem_append_right _ (List.mem_cons_of_mem first member))
    -- Nothing is cached where the episode starts, nor after the calls that fail.
    have uncachedFirst : first.before.cache.snapshot = none := by
      rw [runEpisode.before_eq]
      exact (runFailed.snapshot_finish_eq_none_iff sameFailed
        (snapshot_finish_of_opensEpisode opens uncached)).mpr fail
    obtain ⟨snapshot, fetched, uses, cached⟩ := first.exists_fetched uncachedFirst succeeds
    have found := (runEpisode.rest_of_append.cached sameRest cached).2
    refine ⟨snapshot, fetched, List.forall_mem_cons.mpr ⟨fun _ => uses, fun t member => ?_⟩,
      fun t member => ?_⟩
    · exact (t.uses_of_cached (found t member)).1
    · exact (t.uses_of_cached (found t member)).2
  renewed := by
    rintro earlier opening later rfl opens t inEarlier u inLater snapshot uses usesLater
    obtain ⟨-, below⟩ := (append_iff.mp run).1.fetch_of_uses
      (Session.cachedSince_of_uncached uncached (Nat.le_refl _)) inEarlier uses
    have uncachedLater := Turn.snapshot_after_newEpisode opens
    obtain ⟨above, -⟩ := run.rest_of_append.fetch_of_uses
      (Session.cachedSince_of_uncached uncachedLater (Nat.le_refl _)) inLater usesLater
    -- Numbers used before the new episode are below the fetches started by then, no later ones.
    have unchanged : opening.after.fetches = (finish s earlier).fetches := by
      rw [Turn.fetches_after_of_idle (by simp [Turn.needsFetch, opens]), run.before_eq]
    omega
  counted := run.fetches_finish

end Run

/-- Whatever is called on a planner, whatever its determiner does and whatever library its tokens
are from, between two new episodes all
calls that are answered work on the snapshot that the first of them fetched, nothing is fetched
after that call until the next new episode, no snapshot is used beyond a new episode, and the
fetches are exactly the calls made with nothing cached while neither the token of the episode nor
its root is cancelled. -/
theorem one_snapshot_per_episode (p : Planner) (determiner : Determiner) (limit : Option Span)
    (root serial : Nat) (calls : List Call) :
    OneSnapshotPerEpisode (.fresh limit root serial : Session γ)
      (p.run determiner (.fresh limit root serial) calls) :=
  (p.run_turns _ _).oneSnapshotPerEpisode rfl

end

namespace SecondTry

def state : WorldState := ⟨∅, default⟩

/-- Crashes on the first fetch and reports a state from then on. -/
def determiner : Determiner := .script { reply := .crash } [{ reply := .state state }]

/-- A call for the state in a session without a limit. -/
def turn (snapshot : Option Snapshot) (fetches : Nat) : Turn :=
  ⟨{}, determiner, { cache := { snapshot, root := 0 }, fetches }, .query .worldState⟩

theorem run_eq :
    Planner.run {} determiner (.fresh none 0 0) (.replicate 3 (.query .worldState))
      = [] ++ ([turn none 0] ++ turn none 1 :: [turn (some ⟨1, state⟩) 2]) ++ [] := rfl

end SecondTry

open SecondTry in
/-- Of three calls in an episode the first crashes, and the other two use the snapshot of the
second fetch. -/
theorem one_snapshot_per_episode_secondTry :
    ∃ snapshot, snapshot.fetch = 1 ∧ (turn none 1).Uses snapshot ∧
      (turn (some ⟨1, state⟩) 2).Uses snapshot := by
  have fails : ¬ (turn none 0).Succeeds := by
    rintro ⟨q, call, answer, answered⟩
    obtain rfl := Call.query.inj call
    exact nomatch answered
  have succeeds (snapshot : Option Snapshot) (fetches : Nat)
      (given : (turn snapshot fetches).obtained = .ok ⟨1, state⟩) :
      (turn snapshot fetches).Succeeds :=
    Turn.succeeds_iff.mpr ⟨⟨.worldState, rfl⟩, _, given⟩
  obtain ⟨snapshot, fetched, uses, -⟩ :=
    (one_snapshot_per_episode {} determiner none 0 0 (.replicate 3 (.query .worldState))).shared
      run_eq nofun (by simp [SameEpisode, turn]) (by simpa using fails) (succeeds none 1 rfl)
  obtain ⟨usesFirst, usesRest⟩ := List.forall_mem_cons.mp uses
  exact ⟨snapshot, fetched.number, usesFirst (succeeds none 1 rfl),
    usesRest _ List.mem_cons_self (succeeds _ 2 rfl)⟩

end ActionPlanning
