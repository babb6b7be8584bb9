import ActionPlanning.Episode.Determiner
import ActionPlanning.Episode.Token
import ActionPlanning.Journal.Recorded

/-!
# One snapshot per episode

The cache keeps the world state of the current episode. The first call that needs it asks the
determiner; later calls get the same snapshot until a new episode starts. Only a call that finds
nothing cached looks at the token of the episode, and it asks the determiner only if the token is
not cancelled. Failures are not cached.

A time limit bounds each fetch. Under a limit a determiner that stops without an answer is a
failure like any other; without a limit the stop goes through to the caller. A limit of zero is
over before any answer. A fetch under a limit is given up when its episode is found cancelled; that
may be before the reply comes or the time is up.

## Main definitions

* `Session`: the cache with what is remembered of cancelled tokens and the number of fetches.
* `Session.current`: the snapshot of the episode, fetched on first use.
* `Session.newEpisode`, `Session.cancelEpisode`, `Session.cancelRoot`: what else can happen.
-/

namespace ActionPlanning

/-- A fetched world state and the number of the fetch that produced it. -/
structure Snapshot where
  fetch : Nat
  state : WorldState

/-- Why a call gives no answer. -/
inductive Interruption where
  | failed (failure : Failure)
  /-- The determiner stopped, and the stop goes through to the caller. -/
  | crashed
  /-- The call does not return. -/
  | stuck

/-- The world state of the current episode, and what bounds fetching it. -/
structure Cache where
  snapshot : Option Snapshot := none
  limit : Option Span := none
  root : Nat
  serial : Nat := 0

namespace Cache

/-- The token of the current episode. -/
def token (c : Cache) : Token := .episode c.root c.serial

/-- Bounds every fetch. -/
def withLimit (c : Cache) (limit : Span) : Cache := { c with limit := some limit }

/-- Ties every episode to another root token. What was cached and the current episode are
dropped. -/
def withRoot (c : Cache) (root : Nat) : Cache :=
  { c with root, snapshot := none, serial := c.serial + 1 }

/-- Drops the snapshot and goes on to an episode with a token of its own. -/
def newEpisode (c : Cache) : Cache := { c with snapshot := none, serial := c.serial + 1 }

/-- What a limit is described as. -/
def limitText : Option Span → String
  | none => "None"
  | some limit => "Some(" ++ limit.describe ++ ")"

end Cache

/-- Everything on which a later call can depend: the cache, what is remembered of the cancelled
tokens, and the number of fetches started. The root token of the caller is the root `0`; a cache
that was not tied to it has a root of its own. -/
structure Session (γ : Type := Cancellations) [TokenLibrary γ] where
  cache : Cache := { root := 1 }
  cancellations : γ := TokenLibrary.untouched
  fetches : Nat := 0

namespace Session

variable {γ : Type} [TokenLibrary γ]

/-- The root token of the caller. -/
def callerRoot : Nat := 0

/-- Whether the current episode is cancelled. -/
def isCancelled (s : Session γ) : Bool := TokenLibrary.isCancelled s.cancellations s.cache.token

/-- Cancels a token. -/
def cancel (s : Session γ) (token : Token) : Session γ :=
  { s with cancellations := TokenLibrary.cancel s.cancellations token }

/-- Cancels the current episode. -/
def cancelEpisode (s : Session γ) : Session γ := s.cancel s.cache.token

/-- Cancels the root token of the caller. -/
def cancelRoot (s : Session γ) : Session γ := s.cancel (.root callerRoot)

/-- Starts a new episode. -/
def newEpisode (s : Session γ) : Session γ := { s with cache := s.cache.newEpisode }

/-- What the determiner cancels on the way. -/
def cancelTarget (s : Session γ) : Option CancelTarget → Session γ
  | none => s
  | some .episode => s.cancelEpisode
  | some .root => s.cancelRoot

/-- The reply of a determiner as the caller sees it, without a time limit. -/
def unlimited : Reply → Except Interruption WorldState
  | .state state => .ok state
  | .failure failure => .error (.failed failure)
  | .crash => .error .crashed
  | .silence => .error .stuck

/-- The answer of a determiner as the caller sees it under a time limit, when the episode was or
was not cancelled meanwhile. -/
def limited (limit : Span) (cancelled : Bool) (answer : Answer) :
    Except Interruption WorldState :=
  if cancelled && answer.noticed then .error (.failed .cancelled)
  else if limit.milliseconds = 0 then .error (.failed (.stateUnavailable (.timedOut limit)))
  else
    match answer.reply with
    | .state state => .ok state
    | .failure failure => .error (.failed failure)
    | .crash => .error (.failed (.stateUnavailable .noAnswer))
    | .silence =>
      .error (.failed (if cancelled then .cancelled else .stateUnavailable (.timedOut limit)))

/-- Asks the determiner once. -/
def fetch (determiner : Determiner) (s : Session γ) :
    Except Interruption WorldState × Session γ :=
  let answer := determiner s.fetches
  let after := { s with fetches := s.fetches + 1 }.cancelTarget answer.cancels
  match s.cache.limit with
  | none => (unlimited answer.reply, after)
  | some limit => (limited limit after.isCancelled answer, after)

/-- The snapshot of the episode, fetched on first use. -/
def current (determiner : Determiner) (s : Session γ) :
    Recorded (Except Interruption Snapshot × Session γ) :=
  match s.cache.snapshot with
  | some snapshot => return (.ok snapshot, s)
  | none =>
    if s.isCancelled then return (.error (.failed .cancelled), s)
    else
      match s.fetch determiner with
      | (.error interruption, after) => return (.error interruption, after)
      | (.ok state, after) => do
        Recorded.note (.stateFetched state)
        let snapshot : Snapshot := ⟨s.fetches, state⟩
        return (.ok snapshot, { after with cache.snapshot := some snapshot })

/-- A description of the cache. -/
def describeCache (s : Session γ) : String :=
  "WorldStateCache \x7b timeout: " ++ Cache.limitText s.cache.limit ++ ", cancelled: "
    ++ toString s.isCancelled ++ ", .. \x7d"

end Session

end ActionPlanning
