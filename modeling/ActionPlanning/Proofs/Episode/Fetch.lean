import ActionPlanning.Episode.Cache

/-!
# How the snapshot of an episode is obtained

A call that needs the snapshot of the episode gets it in one of four ways: it finds the snapshot
cached, it is refused because the episode is cancelled, it asks the determiner in vain, or it
asks the determiner and caches what it reports. All that later calls depend on is read off these
four cases, so that no other proof has to look into a fetch.

## Main definitions

* `TokenLibrary.cancelAny`: what is remembered after one token was cancelled, or none.
* `Session.asked`: a session after the determiner was asked once.
* `Session.Obtains`: the four ways.

## Main results

* `Session.current_obtains`: every call goes one of the four ways.
-/

namespace ActionPlanning

namespace TokenLibrary

variable {γ : Type} [TokenLibrary γ] {c : γ} {token : Token} {root serial : Nat}

/-- The token of an episode counts as cancelled once it or its root is cancelled. -/
theorem isCancelled_episode_cancel_iff :
    isCancelled (cancel c token) (.episode root serial) = true ↔
      isCancelled c (.episode root serial) = true ∨
        token = .episode root serial ∨ token = .root root := by
  constructor
  · intro cancelled
    rcases isCancelled_only c token _ cancelled with before | same | ⟨id, number, rfl, same⟩
    · exact .inl before
    · exact .inr (.inl same.symm)
    · -- Only what hangs off the cancelled token counts with it, and an episode hangs off its root.
      obtain ⟨rfl, -⟩ := Token.episode.inj same
      exact .inr (.inr rfl)
  · rintro (before | rfl | rfl)
    · exact isCancelled_mono c token _ before
    · exact isCancelled_cancel c _
    · exact isCancelled_of_root _ root serial (isCancelled_cancel c _)

/-- What is remembered after one token was cancelled, or none. -/
def cancelAny (c : γ) : Option Token → γ
  | none => c
  | some token => cancel c token

theorem isCancelled_episode_cancelAny_iff {cancelled : Option Token} :
    isCancelled (cancelAny c cancelled) (.episode root serial) = true ↔
      isCancelled c (.episode root serial) = true ∨
        cancelled = some (.episode root serial) ∨ cancelled = some (.root root) := by
  cases cancelled with
  | none => simp [cancelAny]
  | some token => simp [cancelAny, isCancelled_episode_cancel_iff]

end TokenLibrary

namespace Session

variable {γ : Type} [TokenLibrary γ] {determiner : Determiner} {s : Session γ}

/-- The token that a determiner cancels in a session. -/
def targetToken (s : Session γ) : CancelTarget → Token
  | .episode => s.cache.token
  | .root => .root callerRoot

/-- The token that the next fetch in a session cancels. -/
def cancelledByFetch (determiner : Determiner) (s : Session γ) : Option Token :=
  (determiner s.fetches).cancels.map s.targetToken

/-- The session after the determiner was asked once. -/
def asked (determiner : Determiner) (s : Session γ) : Session γ where
  cache := s.cache
  cancellations := TokenLibrary.cancelAny s.cancellations (s.cancelledByFetch determiner)
  fetches := s.fetches + 1

@[simp] theorem cache_asked : (s.asked determiner).cache = s.cache := rfl

@[simp] theorem fetches_asked : (s.asked determiner).fetches = s.fetches + 1 := rfl

theorem cancelTarget_eq (target : Option CancelTarget) :
    s.cancelTarget target
      = { s with
          cancellations := TokenLibrary.cancelAny s.cancellations (target.map s.targetToken) } := by
  rcases target with _ | _ | _ <;> rfl

theorem fetch_snd : (s.fetch determiner).2 = s.asked determiner := by
  simp only [fetch, cancelTarget_eq]
  cases s.cache.limit <;> rfl

/-- What the caller sees of a fetch depends on the limit and on what the determiner does, and under
a limit on whether the episode is cancelled by then. -/
theorem fetch_fst :
    (s.fetch determiner).1
      = match s.cache.limit with
        | none => unlimited (determiner s.fetches).reply
        | some limit => limited limit (s.asked determiner).isCancelled (determiner s.fetches) := by
  have after : (s.fetch determiner).2 = s.asked determiner := fetch_snd
  unfold fetch at after ⊢
  cases limited : s.cache.limit with
  | none => rfl
  | some limit =>
    simp only [limited] at after
    simp only [after]

/-- A fetch that yields a state yields the one the determiner reported, with or without a limit. -/
theorem reply_of_fetch {state : WorldState} (fetched : (s.fetch determiner).1 = .ok state) :
    (determiner s.fetches).reply = .state state := by
  rw [fetch_fst] at fetched
  split at fetched
  · cases reply : (determiner s.fetches).reply <;> simp_all [unlimited]
  · unfold limited at fetched
    split at fetched
    · exact nomatch fetched
    split at fetched
    · exact nomatch fetched
    · cases reply : (determiner s.fetches).reply <;> simp_all

/-- How a call comes by the snapshot of the episode, and the session it leaves. -/
inductive Obtains (determiner : Determiner) (s : Session γ) :
    Except Interruption Snapshot → Session γ → Prop
  | cached {snapshot : Snapshot} : s.cache.snapshot = some snapshot →
    s.Obtains determiner (.ok snapshot) s
  | refused : s.cache.snapshot = none → s.isCancelled = true →
    s.Obtains determiner (.error (.failed .cancelled)) s
  | failed {interruption : Interruption} : s.cache.snapshot = none → s.isCancelled = false →
    (s.fetch determiner).1 = .error interruption →
    s.Obtains determiner (.error interruption) (s.asked determiner)
  | fetched {state : WorldState} : s.cache.snapshot = none → s.isCancelled = false →
    (s.fetch determiner).1 = .ok state →
    s.Obtains determiner (.ok ⟨s.fetches, state⟩)
      { s.asked determiner with
        cache := { s.cache with snapshot := some ⟨s.fetches, state⟩ } }

/-- Every call that needs the snapshot comes by it in one of the four ways. -/
theorem current_obtains (determiner : Determiner) (s : Session γ) :
    s.Obtains determiner (s.current determiner).value.1 (s.current determiner).value.2 := by
  unfold current
  cases cached : s.cache.snapshot with
  | some snapshot => exact .cached cached
  | none =>
    by_cases cancelled : s.isCancelled = true
    · simpa only [cancelled, if_true] using .refused cached cancelled
    · have open' : s.isCancelled = false := Bool.eq_false_iff.mpr cancelled
      have after : (s.fetch determiner).2 = s.asked determiner := fetch_snd
      simp only [open', Bool.false_eq_true, if_false]
      cases outcome : (s.fetch determiner).1 with
      | error interruption =>
        have fetch : s.fetch determiner = (.error interruption, s.asked determiner) :=
          Prod.ext outcome after
        simpa only [fetch] using .failed cached open' outcome
      | ok state =>
        have fetch : s.fetch determiner = (.ok state, s.asked determiner) :=
          Prod.ext outcome after
        simpa only [fetch, Recorded.value_bind, Recorded.value_pure, cache_asked] using
          .fetched cached open' outcome

end Session

end ActionPlanning
