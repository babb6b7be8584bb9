import ActionPlanning.Proofs.Episode.Runs

/-!
# What is called after a cancellation

A cancellation is looked at only when a snapshot is fetched. So after the token of an episode or
its root was cancelled, a call is refused exactly if no call of its episode has been answered
before; otherwise the snapshot is cached, and the call goes on working with it although the episode
is cancelled. An episode that starts under a cancelled root never gets that far: all its calls are
refused.

## Main definitions

* `Turn.CancelledIn`: the token of the episode of a call, or its root, was cancelled in some turns.
* `CancellationHeeded`: every call after a cancellation is refused.

## Main results

* `Run.isCancelled_iff`: a token counts as cancelled exactly if it or its root was cancelled.
* `refused_iff_unanswered`: which calls are refused after a cancellation.
* `served_after_cancellation`: a run in which a call after a cancellation is answered.
-/

namespace ActionPlanning

section

variable {γ : Type} [TokenLibrary γ] {s : Session γ} {t : Turn γ}
  {turns earlier episode later : List (Turn γ)}

/-- The token of the episode in which the call is made, or its root, was cancelled in the turns. -/
def Turn.CancelledIn (t : Turn γ) (turns : List (Turn γ)) : Prop :=
  ∃ u ∈ turns, u.cancelled = some t.token ∨ u.cancelled = some (.root t.before.cache.root)

/-- After the token of an episode or its root was cancelled, every call that needs the snapshot is
refused. -/
def CancellationHeeded (run : List (Turn γ)) : Prop :=
  ∀ {earlier t later}, run = earlier ++ t :: later → t.IsQuery → t.CancelledIn earlier → t.Refused

namespace Turn

/-- In a cancelled episode a call is refused exactly if nothing is cached. -/
theorem refused_iff_uncached (isQuery : t.IsQuery) (cancelled : t.before.isCancelled = true) :
    t.Refused ↔ t.before.cache.snapshot = none := by
  rw [refused_iff, and_iff_right isQuery]
  have obtains := t.obtains_after isQuery
  generalize t.after = last, t.obtained = outcome at obtains ⊢
  cases obtains <;> simp_all

theorem Refused.not_succeeds (refused : t.Refused) : ¬ t.Succeeds := by
  intro succeeds
  obtain ⟨-, snapshot, given⟩ := succeeds_iff.mp succeeds
  exact nomatch given.symm.trans (refused_iff.mp refused).2

/-- A call that is made in a cancelled episode or fails caches nothing where nothing was cached. -/
theorem uncached_after (uncached : t.before.cache.snapshot = none)
    (fails : t.before.isCancelled = true ∨ ¬ t.Succeeds) : t.after.cache.snapshot = none := by
  by_cases opens : t.call = .newEpisode
  · exact snapshot_after_newEpisode opens
  · refine (snapshot_after_eq_none_iff uncached opens).mpr ?_
    rcases fails with cancelled | fails
    · -- With nothing cached, all calls are refused.
      intro succeeds
      have isQuery := (succeeds_iff.mp succeeds).1
      exact ((refused_iff_uncached isQuery cancelled).mpr uncached).not_succeeds succeeds
    · exact fails

/-- Cancelled episodes stay cancelled until a new one starts. -/
theorem isCancelled_after (cancelled : t.before.isCancelled = true) (same : t.call ≠ .newEpisode) :
    t.after.isCancelled = true := by
  rw [Session.isCancelled, token_after same, t.cancellations_after]
  exact TokenLibrary.isCancelled_episode_cancelAny_iff.mpr (.inl cancelled)

end Turn

namespace Run

/-- Of a run in which nothing was cancelled before, the token of an episode counts as cancelled
exactly if it or its root was cancelled in some turn. -/
theorem isCancelled_iff (run : Run s turns)
    (uncancelled : ∀ token, TokenLibrary.isCancelled s.cancellations token = false)
    (root serial : Nat) :
    TokenLibrary.isCancelled (finish s turns).cancellations (.episode root serial) = true ↔
      ∃ u ∈ turns, u.cancelled = some (.episode root serial) ∨ u.cancelled = some (.root root) := by
  rw [run.isCancelled_finish_iff, uncancelled, or_iff_right Bool.false_ne_true]

/-- A call is made in a cancelled episode exactly if a turn before it cancelled the episode. -/
theorem isCancelled_before_iff (run : Run s (earlier ++ t :: later))
    (uncancelled : ∀ token, TokenLibrary.isCancelled s.cancellations token = false) :
    t.before.isCancelled = true ↔ t.CancelledIn earlier := by
  have cancelled := (append_iff.mp run).1.isCancelled_iff uncancelled
    t.before.cache.root t.before.cache.serial
  rwa [← run.before_eq] at cancelled

/-- From a cancelled session with nothing cached on, nothing is cached within the episode. -/
theorem uncached_of_isCancelled (run : Run s turns) (same : SameEpisode turns)
    (cancelled : s.isCancelled = true) (uncached : s.cache.snapshot = none) :
    (finish s turns).isCancelled = true ∧ (finish s turns).cache.snapshot = none := by
  refine (run.keeps (fun s => s.isCancelled = true ∧ s.cache.snapshot = none)
    ⟨cancelled, uncached⟩ fun t member holds => ?_).1
  obtain ⟨cancelled, uncached⟩ := holds
  exact ⟨Turn.isCancelled_after cancelled (same t member),
    Turn.uncached_after uncached (.inl cancelled)⟩

end Run

variable {p : Planner} {determiner : Determiner} {limit : Option Span} {root serial : Nat}
  {calls : List Call}

/-- Once the token of the current episode or its root has been cancelled, a call is refused exactly
if no earlier call of its episode was answered; and if that was before the episode started, as when
the root was cancelled in an earlier one, every call is refused. -/
theorem refused_iff_unanswered
    (run : p.run determiner (.fresh limit root serial) calls = earlier ++ (episode ++ t :: later))
    (opens : OpensEpisode earlier) (same : SameEpisode episode) (isQuery : t.IsQuery) :
    (t.CancelledIn (earlier ++ episode) → (t.Refused ↔ ∀ u ∈ episode, ¬ u.Succeeds)) ∧
      (t.CancelledIn earlier → t.Refused) := by
  have isRun : Run (.fresh limit root serial : Session γ) (earlier ++ (episode ++ t :: later)) :=
    run ▸ p.run_turns _ _
  obtain ⟨runEarlier, runRest⟩ := Run.append_iff.mp isRun
  obtain ⟨runEpisode, -⟩ := Run.append_iff.mp runRest
  have uncached := snapshot_finish_of_opensEpisode opens (s := .fresh limit root serial) rfl
  constructor
  · intro cancelledIn
    rw [← List.append_assoc] at isRun
    have cancelled :=
      (isRun.isCancelled_before_iff TokenLibrary.isCancelled_untouched).mpr cancelledIn
    rw [Turn.refused_iff_uncached isQuery cancelled, runRest.before_eq]
    exact runEpisode.snapshot_finish_eq_none_iff same uncached
  · -- Nothing is cached when the episode starts, and nothing gets cached while it is cancelled.
    intro cancelledIn
    have token : t.token = (finish (.fresh limit root serial) earlier).cache.token := by
      rw [Turn.token, runRest.before_eq, runEpisode.token_finish same]
    have atStart : (finish (.fresh limit root serial) earlier).isCancelled = true := by
      rw [Session.isCancelled, ← token]
      exact (runEarlier.isCancelled_iff TokenLibrary.isCancelled_untouched _ _).mpr cancelledIn
    obtain ⟨cancelled, still⟩ := runEpisode.uncached_of_isCancelled same atStart uncached
    rw [← runRest.before_eq] at cancelled still
    exact (Turn.refused_iff_uncached isQuery cancelled).mpr still

end

/-! ## A cancellation that comes late -/

namespace OpenDoor

/-- A state in which the door is open. -/
def state : WorldState := ⟨.ofList [⟨"doorOpen", .flag true⟩], default⟩

/-- A planner that always sees the door open, in a session and with a call. -/
def turn (s : Session) (call : Call) : Turn := ⟨{}, .static state, s, call⟩

/-- The session after the open door was seen. -/
def seen : Session := { Session.fresh none 0 0 with
  cache := { root := 0, snapshot := some ⟨0, state⟩ }, fetches := 1 }

/-- Asking for the state, cancelling the episode and asking again, twice. -/
def run : List Turn :=
  Planner.run {} (.static state) (.fresh none 0 0)
    [.query .worldState, .cancelEpisode, .query .worldState, .cancel (.root 0), .newEpisode,
      .query .worldState]

/-- The door is seen and the episode cancelled. -/
def opening : List Turn :=
  [turn (.fresh none 0 0) (.query .worldState), turn seen .cancelEpisode]

/-- The call after that. -/
def again : Turn := turn seen.cancelEpisode (.query .worldState)

/-- The root is cancelled and a new episode started. -/
def closing : List Turn :=
  [turn seen.cancelEpisode (.cancel (.root 0)),
    turn (seen.cancelEpisode.cancel (.root 0)) .newEpisode]

/-- The call in the new episode. -/
def last : Turn := turn (seen.cancelEpisode.cancel (.root 0)).newEpisode (.query .worldState)

theorem run_eq : run = opening ++ again :: (closing ++ [last]) := rfl

end OpenDoor

open OpenDoor

/-- The first call for the state is answered, so the second is although the episode is cancelled;
the third is made in an episode under a cancelled root and is refused. -/
theorem refused_iff_unanswered_openDoor : ¬ again.Refused ∧ last.Refused := by
  have firstEpisode : OpenDoor.run = [] ++ (opening ++ again :: (closing ++ [last])) := run_eq
  have secondEpisode : OpenDoor.run = (opening ++ again :: closing) ++ ([] ++ last :: []) := run_eq
  have answered : (turn (.fresh none 0 0) (.query .worldState)).Succeeds :=
    ⟨.worldState, rfl, _, rfl⟩
  constructor
  · intro refused
    have unanswered := (refused_iff_unanswered firstEpisode nofun
      (by simp [SameEpisode, opening, turn]) ⟨.worldState, rfl⟩).1
        ⟨turn seen .cancelEpisode, by simp [opening], .inl rfl⟩
    exact unanswered.mp refused _ List.mem_cons_self answered
  · exact (refused_iff_unanswered secondEpisode
      (by simp [OpensEpisode, opening, closing, turn]) nofun ⟨.worldState, rfl⟩).2
        ⟨turn seen.cancelEpisode (.cancel (.root 0)), by simp [closing], .inr rfl⟩

/-- The state is handed out again although the episode has been cancelled in between. -/
theorem served_after_cancellation : ¬ CancellationHeeded OpenDoor.run := by
  intro heeded
  have refused : again.Refused := heeded run_eq ⟨.worldState, rfl⟩
    ⟨turn seen .cancelEpisode, by simp [opening], .inl rfl⟩
  exact nomatch (Turn.refused_iff.mp refused).2.symm.trans (Turn.obtained_of_cached rfl)

end ActionPlanning
