/-!
# Cancellation tokens

A token is either a root or the token of an episode, which hangs off a root. Cancelling a token is
remembered for good. The token of an episode counts as cancelled when it was cancelled itself or
its root was, whichever came first; cancelling it never affects its root or another episode.

This is all that is relied on of a library of tokens. The list of the tokens that were cancelled is
such a library.

## Main definitions

* `Token`: a root, or the token of an episode.
* `TokenLibrary`: what is relied on of a library of tokens.
* `Cancellations`: the library that lists the cancelled tokens.
-/

namespace ActionPlanning

/-- A cancellation token: a root, or the token of an episode under a root. -/
inductive Token where
  | root (id : Nat)
  | episode (root serial : Nat)
  deriving DecidableEq, Repr

/-- What is relied on of a library of cancellation tokens, given by what it remembers. -/
class TokenLibrary (γ : Type) where
  /-- What is remembered before anything was cancelled. -/
  untouched : γ
  cancel : γ → Token → γ
  isCancelled : γ → Token → Bool
  isCancelled_untouched : ∀ token, isCancelled untouched token = false
  /-- A token that is cancelled counts as cancelled. -/
  isCancelled_cancel : ∀ c token, isCancelled (cancel c token) token = true
  /-- A token counts as cancelled when its root does, also if it is made afterwards. -/
  isCancelled_of_root : ∀ c root serial, isCancelled c (.root root) = true →
    isCancelled c (.episode root serial) = true
  /-- What counts as cancelled does so for good. -/
  isCancelled_mono : ∀ c token other, isCancelled c other = true →
    isCancelled (cancel c token) other = true
  /-- Cancelling a token affects no other token, unless it is the root of that one. -/
  isCancelled_only : ∀ c token other, isCancelled (cancel c token) other = true →
    isCancelled c other = true ∨ other = token ∨
      ∃ root serial, token = .root root ∧ other = .episode root serial

/-- The tokens that were cancelled so far. -/
structure Cancellations where
  tokens : List Token := []
  deriving DecidableEq, Repr, Inhabited

namespace Cancellations

/-- Cancels a token. -/
def cancel (c : Cancellations) (token : Token) : Cancellations := ⟨token :: c.tokens⟩

/-- Whether a token counts as cancelled. -/
def isCancelled (c : Cancellations) : Token → Bool
  | .root id => c.tokens.contains (.root id)
  | .episode root serial =>
    c.tokens.contains (.episode root serial) || c.tokens.contains (.root root)

instance : TokenLibrary Cancellations where
  untouched := {}
  cancel := cancel
  isCancelled := isCancelled
  isCancelled_untouched token := by cases token <;> rfl
  isCancelled_cancel c token := by cases token <;> simp [isCancelled, cancel]
  isCancelled_of_root c root serial cancelled := by
    simp only [isCancelled] at cancelled ⊢
    rw [cancelled, Bool.or_true]
  isCancelled_mono c token other cancelled := by
    cases other <;> simp only [isCancelled, cancel, List.contains_cons, Bool.or_eq_true] at * <;>
      grind
  isCancelled_only c token other cancelled := by
    cases other <;> simp only [isCancelled, cancel, List.contains_cons, Bool.or_eq_true,
      beq_iff_eq] at * <;> grind

end Cancellations

end ActionPlanning
