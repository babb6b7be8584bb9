import ActionPlanning.Proofs.Episode.Cancellation

/-!
# How far a cancellation reaches

Every episode has a token of its own, which hangs off the root. It counts as cancelled exactly if it
was cancelled itself or the root was, no matter by whom and from when on the token was kept. So a
cancellation of the root silences all episodes from then on, and one of an episode silences that
episode.

The calls of other episodes keep their tokens, and they go on as if nothing had happened if the
cancelled episode is over, whatever the determiner does. If it is not over, then the determiner is
asked less often, and a determiner that counts notices that. This is all it can notice: the calls of
other episodes go on as if it had been asked just as often. Only a determiner that would have
cancelled the root in a fetch that is not started now leaves more to them than it would have.

## Main definitions

* `CancellationScoped`: which tokens a run cancels, and what is silent after that.
* `Unaffected`: two runs agree on the calls that are made under other tokens than a given one.
* `CancellationContained`: what a cancelled episode changes in what follows.

## Main results

* `cancellation_scoped`: every run is scoped, and every cancellation of an episode is contained.
* `noticed_by_determiner`: what a determiner does then can depend on a cancelled episode.
-/

namespace ActionPlanning

section

variable {γ : Type} [TokenLibrary γ] {s s' : Session γ} {t u : Turn γ} {turns : List (Turn γ)}
  {root serial : Nat}

/-- Cancellations reach as far as they should in a run, and not further. -/
structure CancellationScoped (s : Session γ) (run : List (Turn γ)) : Prop where
  /-- At any point the token of an episode counts as cancelled exactly if it or its root has been
  cancelled. -/
  cancelled_iff : ∀ {earlier later}, run = earlier ++ later → ∀ root serial,
    TokenLibrary.isCancelled (finish s earlier).cancellations (.episode root serial) = true ↔
      ∃ u ∈ earlier, u.cancelled = some (.episode root serial) ∨ u.cancelled = some (.root root)
  /-- Calls are made under the same token exactly if they belong to the same episode. -/
  token_eq_iff : ∀ {earlier t between u later}, run = earlier ++ (t :: between ++ u :: later) →
    (u.token = t.token ↔ SameEpisode (t :: between))
  /-- After a cancellation of the episode or the root the determiner is not asked, and a call that
  needs a fetch is refused and leaves nothing cached. -/
  silent : ∀ {earlier t later}, run = earlier ++ t :: later → t.CancelledIn earlier →
    t.after.fetches = t.before.fetches ∧
      (t.IsQuery → t.before.cache.snapshot = none →
        t.Refused ∧ t.after.cache.snapshot = none)

namespace Run

/-- The tokens of a run are numbered by its new episodes. -/
theorem serial_finish (run : Run s turns) :
    (finish s turns).cache.serial
      = s.cache.serial + turns.countP (·.call.startsEpisode) := by
  induction run with
  | nil => rfl
  | @cons t rest run ih =>
    rw [finish_cons, ih, t.serial_after, List.countP_cons]
    omega

theorem sameEpisode_iff (run : Run s turns) :
    (finish s turns).cache.token = s.cache.token ↔ SameEpisode turns := by
  have count : turns.countP (·.call.startsEpisode) = 0 ↔ SameEpisode turns := by
    rw [List.countP_eq_zero]
    refine forall₂_congr fun t _ => ?_
    cases t.call <;> simp [Call.startsEpisode]
  rw [Cache.token, Cache.token, run.root_finish, run.serial_finish, ← count]
  simp

/-- The runs of a session in which nothing was cancelled are scoped. -/
theorem cancellationScoped (run : Run s turns)
    (uncancelled : ∀ token, TokenLibrary.isCancelled s.cancellations token = false) :
    CancellationScoped s turns where
  cancelled_iff := by
    rintro earlier later rfl root serial
    exact (append_iff.mp run).1.isCancelled_iff uncancelled root serial
  token_eq_iff := by
    rintro earlier t between u later rfl
    obtain ⟨-, runRest⟩ := append_iff.mp run
    obtain ⟨runBetween, -⟩ := append_iff.mp runRest
    have first : t.token = (finish s earlier).cache.token :=
      congrArg (·.cache.token) (cons_iff.mp runBetween).1
    rw [Turn.token, runRest.before_eq, first]
    exact runBetween.sameEpisode_iff
  silent := by
    rintro earlier t later rfl cancelledIn
    have cancelled := (run.isCancelled_before_iff uncancelled).mpr cancelledIn
    refine ⟨Turn.fetches_after_of_idle (by simp [Turn.needsFetch_iff, cancelled]),
      fun isQuery uncached => ?_⟩
    have refused := (Turn.refused_iff_uncached isQuery cancelled).mpr uncached
    obtain ⟨q, call⟩ := isQuery
    exact ⟨refused, (Turn.snapshot_after_eq_none_iff uncached (by simp [call])).mpr
      refused.not_succeeds⟩

end Run

/-! ## Other episodes -/

/-- The calls of two runs are made under the same tokens. -/
def SameTokens (run other : List (Turn γ)) : Prop :=
  ∀ (i : Nat) (t u : Turn γ), run[i]? = some t → other[i]? = some u → u.token = t.token

/-- Two runs go on alike but for the calls under one token: what is called in the one is called in
the other as well, under the same token, and a call under another token finds its episode cancelled
in both or in none and is given the same state, or none for the same reason. -/
def Unaffected (token : Token) (run other : List (Turn γ)) : Prop :=
  ∀ (i : Nat) (t : Turn γ), run[i]? = some t →
    ∃ u, other[i]? = some u ∧ u.call = t.call ∧ u.token = t.token ∧
      (t.token ≠ token →
        u.before.isCancelled = t.before.isCancelled ∧ (t.IsQuery → u.state = t.state))

/-- The current episode or an earlier one under its root, or any one under another root. -/
def Session.HasReached (s : Session γ) (root serial : Nat) : Prop :=
  root = s.cache.root → serial ≤ s.cache.serial

/-- An episode before the current one under its root, or any one under another root. -/
def Session.HasLeft (s : Session γ) (root serial : Nat) : Prop :=
  root = s.cache.root → serial < s.cache.serial

/-- The number of fetches that a run starts under a token. -/
def fetchesUnder (token : Token) (run : List (Turn γ)) : Nat :=
  run.countP fun t => t.token = token && t.needsFetch

/-- The request with its determiner as it acts after some more fetches. -/
def Request.skip (request : Request) (fetches : Nat) : Request :=
  { request with determiner := fun fetch => request.determiner (fetch + fetches) }

/-- What it changes for the calls of other episodes if the token of an episode is cancelled. -/
structure CancellationContained (p : Planner) (s : Session γ) (root serial : Nat)
    (requests : List Request) : Prop where
  /-- No call gets another token, even if the determiner acts in another way after that. -/
  tokens : ∀ requests', requests'.map Request.call = requests.map Request.call →
    SameTokens (p.turns s requests) (p.turns (s.cancel (.episode root serial)) requests')
  /-- If the episode is over, nothing changes. -/
  left : s.HasLeft root serial →
    Unaffected (.episode root serial) (p.turns s requests)
      (p.turns (s.cancel (.episode root serial)) requests)
  /-- If it may be going on, nothing changes but the number of fetches that the determiner counts,
  unless it would have cancelled the root in one of those that are not started now. -/
  reached : s.HasReached root serial →
    (∀ t ∈ p.turns s requests, t.token = .episode root serial → t.needsFetch = true →
      t.cancelled ≠ some (.root root)) →
    Unaffected (.episode root serial) (p.turns s requests)
      (p.turns (s.cancel (.episode root serial))
        (requests.map (·.skip (fetchesUnder (.episode root serial) (p.turns s requests)))))

/-! ### Tokens -/

theorem Session.HasReached.hasLeft (reached : s.HasReached root serial)
    (other : s.cache.token ≠ .episode root serial) : s.HasLeft root serial :=
  fun same => Nat.lt_of_le_of_ne (reached same) fun current => other (by
    rw [Cache.token, same, current])

theorem Turn.hasReached_after (reached : t.before.HasReached root serial) :
    t.after.HasReached root serial := by
  rw [Session.HasReached, t.bounds_after.2, t.serial_after]
  exact fun same => Nat.le_trans (reached same) (Nat.le_add_right _ _)

theorem Turn.hasLeft_after (left : t.before.HasLeft root serial) :
    t.after.HasLeft root serial := by
  rw [Session.HasLeft, t.bounds_after.2, t.serial_after]
  exact fun same => Nat.lt_of_lt_of_le (left same) (Nat.le_add_right _ _)

/-- The same call leads from the same token to the same token. -/
theorem Turn.token_after_congr (call : u.call = t.call)
    (current : u.before.cache.token = t.before.cache.token) :
    u.after.cache.token = t.after.cache.token := by
  obtain ⟨root, serial⟩ := Token.episode.inj current
  rw [Cache.token, Cache.token, t.bounds_after.2, u.bounds_after.2, t.serial_after,
    u.serial_after, call, root, serial]

/-- The same calls are made under the same tokens. -/
theorem Planner.sameTokens (p : Planner) {requests requests' : List Request}
    (current : s'.cache.token = s.cache.token)
    (calls : requests'.map Request.call = requests.map Request.call) :
    SameTokens (p.turns s requests) (p.turns s' requests') := by
  induction requests generalizing requests' s s' with
  | nil => exact fun i t u found => absurd found (by simp [turns])
  | cons request rest ih =>
    obtain _ | ⟨request', rest'⟩ := requests'
    · exact absurd calls.symm (List.cons_ne_nil _ _)
    obtain ⟨call, calls⟩ := List.cons.inj calls
    intro i v w found found'
    rw [turns] at found found'
    cases i with
    | zero =>
      obtain rfl := Option.some.inj found
      obtain rfl := Option.some.inj found'
      exact current
    | succ i =>
      rw [List.getElem?_cons_succ] at found found'
      split at found
      · split at found'
        · exact ih (Turn.token_after_congr call current) calls i v w found found'
        · simp at found'
      · simp at found

theorem fetchesUnder_cons {token : Token} :
    fetchesUnder token (t :: turns) = fetchesUnder token [t] + fetchesUnder token turns := by
  rw [fetchesUnder, fetchesUnder, fetchesUnder, ← List.countP_append]
  rfl

namespace Run

/-- Nothing is called under the token of an episode that is over. -/
theorem token_ne_of_hasLeft (run : Run s turns) (left : s.HasLeft root serial) :
    ∀ t ∈ turns, t.token ≠ .episode root serial := by
  have later := (run.keeps (·.HasLeft root serial) left fun _ _ => Turn.hasLeft_after).2
  intro t member same
  obtain ⟨sameRoot, sameSerial⟩ := Token.episode.inj same
  exact Nat.lt_irrefl _ (sameSerial ▸ later t member sameRoot.symm)

theorem fetchesUnder_of_hasLeft (run : Run s turns) (left : s.HasLeft root serial) :
    fetchesUnder (.episode root serial) turns = 0 := by
  refine List.countP_eq_zero.mpr fun t member => ?_
  simp [run.token_ne_of_hasLeft left t member]

end Run

/-! ### What goes on alike -/

/-- Sessions that differ at most in what a cancellation of the token of an episode has changed. -/
structure Session.AlikeBut (root serial : Nat) (s s' : Session γ) : Prop where
  current : s'.cache.token = s.cache.token
  limit : s'.cache.limit = s.cache.limit
  cancelled : TokenLibrary.isCancelled s'.cancellations (.episode root serial) = true
  others : ∀ number, .episode s.cache.root number ≠ Token.episode root serial →
    TokenLibrary.isCancelled s'.cancellations (.episode s.cache.root number)
      = TokenLibrary.isCancelled s.cancellations (.episode s.cache.root number)
  cached : s.cache.token ≠ .episode root serial →
    s'.cache.snapshot.map Snapshot.state = s.cache.snapshot.map Snapshot.state

namespace Session.AlikeBut

theorem cancel (s : Session γ) : s.AlikeBut root serial (s.cancel (.episode root serial)) where
  current := rfl
  limit := rfl
  cancelled := TokenLibrary.isCancelled_cancel _ _
  others number ne := by
    rw [Bool.eq_iff_iff, Session.cancel, TokenLibrary.isCancelled_episode_cancel_iff]
    exact or_iff_left (not_or.mpr ⟨ne.symm, Token.noConfusion⟩)
  cached _ := rfl

theorem isCancelled_of_current (alike : s.AlikeBut root serial s')
    (own : s.cache.token = .episode root serial) : s'.isCancelled = true := by
  rw [Session.isCancelled, alike.current, own]
  exact alike.cancelled

theorem isCancelled_eq (alike : s.AlikeBut root serial s')
    (other : s.cache.token ≠ .episode root serial) : s'.isCancelled = s.isCancelled := by
  rw [Session.isCancelled, Session.isCancelled, alike.current]
  exact alike.others _ other

end Session.AlikeBut

/-- The same call in sessions that are alike but for the token of an episode, with determiners that
act alike under other tokens, where the one under that token does not cancel its root. -/
structure Turn.AlikeBut (root serial : Nat) (t u : Turn γ) : Prop where
  before : t.before.AlikeBut root serial u.before
  call : u.call = t.call
  determiner : t.token ≠ .episode root serial →
    u.determiner u.before.fetches = t.determiner t.before.fetches
  rootKept : t.token = .episode root serial → t.needsFetch = true → t.cancelled ≠ some (.root root)

namespace Turn.AlikeBut

theorem token_eq (alike : t.AlikeBut root serial u) : u.token = t.token := alike.before.current

theorem isQuery_iff (alike : t.AlikeBut root serial u) : u.IsQuery ↔ t.IsQuery := by
  rw [IsQuery, IsQuery, alike.call]

/-- A turn under the token finds its episode cancelled, so it does not ask the determiner. -/
theorem idle (alike : t.AlikeBut root serial u) (own : t.token = .episode root serial) :
    ¬ u.needsFetch = true := by
  simp [needsFetch_iff, alike.before.isCancelled_of_current own]

section

variable (alike : t.AlikeBut root serial u) (other : t.token ≠ .episode root serial)
include alike other

theorem uncached_iff : u.before.cache.snapshot = none ↔ t.before.cache.snapshot = none := by
  rw [← Option.map_eq_none_iff (f := Snapshot.state), alike.before.cached other,
    Option.map_eq_none_iff]

theorem needsFetch_eq : u.needsFetch = t.needsFetch := by
  rw [Bool.eq_iff_iff, needsFetch_iff, needsFetch_iff, alike.isQuery_iff,
    alike.uncached_iff other, alike.before.isCancelled_eq other]

theorem cancelledByFetch_eq :
    u.before.cancelledByFetch u.determiner = t.before.cancelledByFetch t.determiner := by
  have target : u.before.targetToken = t.before.targetToken := by
    funext target
    cases target
    · exact alike.before.current
    · rfl
  rw [Session.cancelledByFetch, Session.cancelledByFetch, alike.determiner other, target]

end

/-- Both turns cancel the same tokens, except for the one in which the sessions differ and for other
roots. -/
theorem cancelled_iff (alike : t.AlikeBut root serial u) {token : Token}
    (ne : token ≠ .episode root serial)
    (ownRoot : ∀ id, token = .root id → id = t.before.cache.root) :
    u.cancelled = some token ↔ t.cancelled = some token := by
  have call := alike.call
  cases callT : t.call with
  | newEpisode => simp [cancelled, call, callT]
  | cancelEpisode => simp [cancelled, call, callT, alike.token_eq]
  | cancel => simp [cancelled, call, callT]
  | query q =>
    by_cases own : t.token = .episode root serial
    · -- The determiner is not asked in the one turn, and may only cancel this episode in the other.
      have none : u.cancelled = none := by
        simp only [cancelled, call, callT, if_neg (alike.idle own)]
      rw [none]
      refine iff_of_false (Option.some_ne_none _).symm fun cancels => ?_
      have due : t.needsFetch = true := by
        refine Classical.byContradiction fun idle => ?_
        simp only [cancelled, callT, if_neg idle] at cancels
        exact Option.some_ne_none token cancels.symm
      have fetch : t.before.cancelledByFetch t.determiner = some token := by
        rw [← cancels]
        simp only [cancelled, callT, if_pos due]
      obtain ⟨target, -, rfl⟩ := Option.map_eq_some_iff.mp fetch
      cases target with
      | episode => exact ne own
      | root =>
        have same : Session.callerRoot = root :=
          (ownRoot _ rfl).trans (Token.episode.inj own).1
        exact alike.rootKept own due (cancels.trans (by rw [← same]; rfl))
    · simp only [cancelled, call, callT]
      rw [alike.needsFetch_eq own, alike.cancelledByFetch_eq own]

/-- A call under another token is given the same state in both turns. -/
theorem state_eq (alike : t.AlikeBut root serial u) (other : t.token ≠ .episode root serial)
    (isQuery : t.IsQuery) : u.state = t.state := by
  have cancelled := alike.before.isCancelled_eq other
  have cached := alike.before.cached other
  have fetch : (u.before.fetch u.determiner).1 = (t.before.fetch t.determiner).1 := by
    have cancelledMeanwhile :
        (u.before.asked u.determiner).isCancelled = (t.before.asked t.determiner).isCancelled := by
      have before := alike.before.others _ other
      simp only [Session.isCancelled, Session.cache_asked, alike.before.current]
      rw [Bool.eq_iff_iff] at before ⊢
      simp only [Cache.token, Session.asked, TokenLibrary.isCancelled_episode_cancelAny_iff,
        alike.cancelledByFetch_eq other, before]
    rw [Session.fetch_fst, Session.fetch_fst, alike.before.limit, cancelledMeanwhile,
      alike.determiner other]
  have obtainsT := t.obtains_after isQuery
  have obtainsU := u.obtains_after (alike.isQuery_iff.mpr isQuery)
  unfold state
  generalize t.after = last, t.obtained = outcome at obtainsT ⊢
  generalize u.after = last, u.obtained = outcome at obtainsU ⊢
  cases obtainsT <;> cases obtainsU <;> simp_all [Except.map]

/-- The sessions that the turns leave are alike but for the same token. -/
theorem after (alike : t.AlikeBut root serial u) : t.after.AlikeBut root serial u.after where
  current := token_after_congr alike.call alike.token_eq
  limit := by rw [t.bounds_after.1, u.bounds_after.1, alike.before.limit]
  cancelled := by
    rw [u.cancellations_after]
    exact TokenLibrary.isCancelled_episode_cancelAny_iff.mpr (.inl alike.before.cancelled)
  others number ne := by
    rw [t.bounds_after.2] at ne ⊢
    have before := alike.before.others number ne
    rw [Bool.eq_iff_iff] at before ⊢
    rw [t.cancellations_after, u.cancellations_after,
      TokenLibrary.isCancelled_episode_cancelAny_iff,
      TokenLibrary.isCancelled_episode_cancelAny_iff, before, alike.cancelled_iff ne nofun,
      alike.cancelled_iff Token.noConfusion fun _ same => (Token.root.inj same).symm]
  cached other := by
    by_cases opens : t.call = .newEpisode
    · rw [snapshot_after_newEpisode opens, snapshot_after_newEpisode (alike.call.trans opens)]
    rw [t.token_after opens] at other
    by_cases isQuery : t.IsQuery
    · rw [snapshot_after_query isQuery, snapshot_after_query (alike.isQuery_iff.mpr isQuery),
        ← toOption_state, ← toOption_state, alike.state_eq other isQuery]
    · rw [snapshot_after_of_not_query isQuery opens,
        snapshot_after_of_not_query (mt alike.isQuery_iff.mp isQuery) (alike.call ▸ opens),
        alike.before.cached other]

/-- Only what is fetched under the token is fetched in one of the turns only. -/
theorem fetches_after (alike : t.AlikeBut root serial u) {ahead : Nat}
    (fetches : t.before.fetches = u.before.fetches + ahead) :
    t.after.fetches
      = u.after.fetches + (ahead + fetchesUnder (.episode root serial) [t]) := by
  rw [t.fetches_after, u.fetches_after, fetches, fetchesUnder, List.countP_singleton]
  by_cases own : t.token = .episode root serial
  · simp only [alike.idle own, own]
    simp
    omega
  · simp only [alike.needsFetch_eq own, own]
    simp
    omega

/-- A call that returns in the one turn returns in the other. -/
theorem returns (alike : t.AlikeBut root serial u) (returns : t.returns = true) :
    u.returns = true := by
  rw [returns_iff] at returns ⊢
  intro isQuery
  by_cases own : t.token = .episode root serial
  · -- A call in a cancelled episode is answered from what is cached, or refused.
    have obtains := u.obtains_after isQuery
    have cancelled := alike.before.isCancelled_of_current own
    generalize u.after = last, u.obtained = outcome at obtains ⊢
    cases obtains <;> simp_all
  · have isQuery := alike.isQuery_iff.mp isQuery
    rw [Ne, ← state_eq_error_iff, alike.state_eq own isQuery, state_eq_error_iff]
    exact returns isQuery

end Turn.AlikeBut

/-- In sessions that are alike a request is alike to itself with a determiner that is ahead, if that
is by what the determiner has been asked more often. Under the token in which the sessions differ it
need not be. -/
theorem Session.AlikeBut.turn (alike : s.AlikeBut root serial s') {p : Planner} {request : Request}
    {ahead total : Nat} (first : ⟨p, request.determiner, s, request.call⟩ = t)
    (second : ⟨p, (request.skip total).determiner, s', (request.skip total).call⟩ = u)
    (fetches : s.fetches = s'.fetches + ahead)
    (all : s.cache.token ≠ .episode root serial → total = ahead)
    (rootKept : t.token = .episode root serial → t.needsFetch = true →
      t.cancelled ≠ some (.root root)) : t.AlikeBut root serial u := by
  subst first second
  refine ⟨alike, rfl, fun other => ?_, rootKept⟩
  change request.determiner (s'.fetches + total) = request.determiner s.fetches
  rw [fetches, all other]

/-- Runs from sessions that are alike but for the token of an episode go on alike but for the calls
under it, if the determiners of the second are ahead of those of the first by all that they are not
asked in it. -/
theorem unaffected_of_alikeBut (p : Planner) (alike : s.AlikeBut root serial s')
    {requests : List Request} {ahead total : Nat} (fetches : s.fetches = s'.fetches + ahead)
    (sum : total = ahead + fetchesUnder (.episode root serial) (p.turns s requests))
    (reached : s.HasReached root serial)
    (rootKept : ∀ t ∈ p.turns s requests, t.token = .episode root serial → t.needsFetch = true →
      t.cancelled ≠ some (.root root)) :
    Unaffected (.episode root serial) (p.turns s requests)
      (p.turns s' (requests.map (·.skip total))) := by
  induction requests generalizing s s' ahead with
  | nil => exact fun i t found => absurd found (by simp [Planner.turns])
  | cons request rest ih =>
    have isRun := p.run_turns s (request :: rest)
    have all (other : s.cache.token ≠ .episode root serial) : total = ahead := by
      -- The episode is over, so all that was to be fetched in it has been fetched.
      rw [sum, isRun.fetchesUnder_of_hasLeft (reached.hasLeft other), Nat.add_zero]
    simp only [List.map_cons, Planner.turns] at rootKept sum ⊢
    generalize first : (⟨p, request.determiner, s, request.call⟩ : Turn γ) = t at *
    generalize second : (⟨p, (request.skip total).determiner, s', (request.skip total).call⟩
      : Turn γ) = u at *
    have step := alike.turn first second fetches all (rootKept t List.mem_cons_self)
    obtain rfl : t.before = s := by rw [← first]
    obtain rfl : u.before = s' := by rw [← second]
    intro i v found
    cases i with
    | zero =>
      -- The first call is made in both runs.
      obtain rfl : t = v := Option.some.inj found
      refine ⟨u, rfl, step.call, step.token_eq, fun other => ⟨?_, ?_⟩⟩
      · exact step.before.isCancelled_eq other
      · exact step.state_eq other
    | succ i =>
      rw [List.getElem?_cons_succ] at found ⊢
      split at found
      · next returns =>
        -- The other run goes on as well, from a session that is alike again.
        rw [if_pos (step.returns returns)]
        rw [if_pos returns] at rootKept sum
        refine ih step.after (step.fetches_after fetches) ?_ (t.hasReached_after reached)
          (fun w member => rootKept w (List.mem_cons_of_mem t member)) i v found
        rw [sum, fetchesUnder_cons, Nat.add_assoc]
      · simp at found

/-- A cancellation of the token of an episode is contained, whatever is called after it. -/
theorem cancellationContained (p : Planner) (s : Session γ) (root serial : Nat)
    (requests : List Request) : CancellationContained p s root serial requests where
  tokens _ := p.sameTokens rfl
  left left := by
    have isRun := p.run_turns s requests
    have unaffected := unaffected_of_alikeBut p (.cancel s) rfl (Nat.zero_add _).symm
      (fun same => Nat.le_of_lt (left same))
      fun t member own => absurd own (isRun.token_ne_of_hasLeft left t member)
    rw [isRun.fetchesUnder_of_hasLeft left] at unaffected
    simpa [Request.skip] using unaffected
  reached := unaffected_of_alikeBut p (.cancel s) rfl (Nat.zero_add _).symm

/-- Whatever is called on a planner, whatever its determiner does and whatever library its tokens
are from, the token of an episode counts as cancelled exactly if it or the root was cancelled
before; after that the determiner is not asked in that episode, and calls that need a fetch are
refused. And whenever the token of an episode is cancelled, the calls under other tokens keep their
tokens, and their outcomes as well if that episode is over, or else up to what the determiner can
tell from being asked less often. -/
theorem cancellation_scoped (p : Planner) :
    (∀ limit root serial requests,
      CancellationScoped (.fresh limit root serial : Session γ)
        (p.turns (.fresh limit root serial) requests)) ∧
    ∀ (s : Session γ) (root serial : Nat) (requests : List Request),
      CancellationContained p s root serial requests :=
  ⟨fun _ _ _ _ => (p.run_turns _ _).cancellationScoped TokenLibrary.isCancelled_untouched,
    cancellationContained p⟩

end

namespace SelfClosingDoor

open OpenDoor (state)

/-- A state in which the door is shut. -/
def shut : WorldState := ⟨.ofList [⟨"doorOpen", .flag false⟩], default⟩

/-- Reports an open door on the first fetch, and a door that is shut from then on. -/
def determiner : Determiner := .script { reply := .state state } [{ reply := .state shut }]

/-- The session before any call. -/
def start : Session := .fresh none 0 0

/-- Asking for the state in two episodes. -/
def requests : List Request :=
  [.query .worldState, .newEpisode, .query .worldState].map fun call => ⟨call, determiner⟩

/-- The same calls, with a determiner that cancels the root whenever it is asked. -/
def rootCancelling : List Request :=
  requests.map fun request =>
    { request with determiner := fun _ => { cancels := some .root, reply := .state state } }

/-- The second episode, after the open door was seen in the first. -/
def second : Session :=
  { cache := { root := 0, serial := 1 }, fetches := 1 }

theorem open_ne_shut : state ≠ shut := fun same =>
  absurd (congrArg WorldState.facts same) (by decide)

end SelfClosingDoor

open SelfClosingDoor in
/-- In the second episode the door is found shut, also if the token kept from the first episode is
cancelled meanwhile; and if that token is cancelled at the start, then by a determiner that goes on
to report it shut at once. -/
theorem cancellation_scoped_selfClosingDoor :
    (∀ t, (Planner.turns {} (second.cancel (.episode 0 0))
      [⟨.query .worldState, determiner⟩])[0]? = some t → t.state = .ok shut) ∧
    ∀ t, (Planner.turns {} (start.cancel (.episode 0 0))
      (requests.map (·.skip 1)))[2]? = some t → t.state = .ok shut := by
  obtain ⟨-, contained⟩ := cancellation_scoped (γ := Cancellations) {}
  constructor
  · intro t found
    obtain ⟨u, found', -, -, same⟩ :=
      (contained second 0 0 [⟨.query .worldState, determiner⟩]).left (fun _ => Nat.one_pos) 0 _ rfl
    obtain rfl := Option.some.inj (found.symm.trans found')
    exact (same (by decide)).2 ⟨.worldState, rfl⟩
  · intro t found
    have rootKept : ∀ t ∈ Planner.turns {} start requests, t.token = .episode 0 0 →
        t.needsFetch = true → t.cancelled ≠ some (.root 0) :=
      List.forall_mem_cons.mpr ⟨fun _ _ => nofun, List.forall_mem_cons.mpr ⟨fun _ _ => nofun,
        List.forall_mem_cons.mpr ⟨fun _ _ => nofun, nofun⟩⟩⟩
    obtain ⟨u, found', -, -, same⟩ :=
      (contained start 0 0 requests).reached (fun _ => Nat.le_refl 0) rootKept 2 _ rfl
    obtain rfl := Option.some.inj (found.symm.trans found')
    exact (same (by decide)).2 ⟨.worldState, rfl⟩

open SelfClosingDoor in
/-- A determiner notices that a cancelled episode asks it no more. If the token of the first episode
is cancelled, one that counts tells the second episode of the open door; and one that cancels the
root whenever it is asked has not done so when the second episode starts. -/
theorem noticed_by_determiner :
    ¬ Unaffected (.episode 0 0) (Planner.turns {} start requests)
        (Planner.turns {} (start.cancel (.episode 0 0)) requests) ∧
      ¬ Unaffected (.episode 0 0) (Planner.turns {} start rootCancelling)
        (Planner.turns {} (start.cancel (.episode 0 0)) rootCancelling) := by
  constructor
  · intro unaffected
    obtain ⟨u, found, -, -, same⟩ := unaffected 2 _ rfl
    obtain rfl := Option.some.inj found
    have told := (same (by decide)).2 ⟨.worldState, rfl⟩
    exact open_ne_shut (Except.ok.inj told)
  · intro unaffected
    obtain ⟨u, found, -, -, same⟩ := unaffected 2 _ rfl
    obtain rfl := Option.some.inj found
    exact absurd (same (by decide)).1 (by decide)

end ActionPlanning
