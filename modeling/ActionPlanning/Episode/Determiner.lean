import ActionPlanning.Failure
import ActionPlanning.WorldState

/-!
# Determiners

A determiner observes the world. Each fetch asks it once, and all that matters of it is how it
acts on each fetch: it may cancel a token on the way, and then it reports a state, fails, stops
without an answer, or never comes back. A caller that waits under a time limit looks at the token of
the episode from time to time, and may find it cancelled before it is given the reply.
-/

namespace ActionPlanning

/-- What a determiner comes up with. -/
inductive Reply where
  | state (state : WorldState)
  | failure (failure : Failure)
  /-- Stops without an answer. -/
  | crash
  /-- Never comes back. -/
  | silence

/-- The token a determiner cancels while it is being asked. -/
inductive CancelTarget where
  | episode
  | root
  deriving DecidableEq, Repr

/-- How a determiner acts on one fetch. -/
structure Answer where
  cancels : Option CancelTarget := none
  reply : Reply
  /-- Whether the caller has the time to notice what is cancelled before the reply comes or the time
  is up. -/
  noticed : Bool := false

/-- A determiner, given by how it acts on each fetch, counted from zero. -/
abbrev Determiner := Nat → Answer

namespace Determiner

/-- Always reports the same state. -/
def static (state : WorldState) : Determiner := fun _ => { reply := .state state }

/-- Acts as a script says; the last entry repeats. -/
def script (first : Answer) (rest : List Answer) : Determiner :=
  fun fetch => ((first :: rest)[fetch]?).getD (rest.getLastD first)

end Determiner

end ActionPlanning
