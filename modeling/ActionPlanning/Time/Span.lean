/-!
# Spans of time

Time limits are whole milliseconds. Their text chooses the unit: nothing is `0ns`, less than a
second is given in milliseconds, and from one second on the fraction is trimmed.
-/

namespace ActionPlanning

/-- A span of time in whole milliseconds. -/
structure Span where
  milliseconds : Nat
  deriving DecidableEq, Repr, Inhabited

namespace Span

/-- The digits after the point of a number of thousandths, without trailing zeros. -/
def thousandths (n : Nat) : String :=
  if n % 100 = 0 then toString (n / 100)
  else if n % 10 = 0 then (if n / 10 < 10 then "0" else "") ++ toString (n / 10)
  else (if n < 10 then "00" else if n < 100 then "0" else "") ++ toString n

/-- The text of a span: `0ns`, `999ms`, `1s`, `1.5s`. -/
def describe (s : Span) : String :=
  let whole := s.milliseconds / 1000
  let rest := s.milliseconds % 1000
  if s.milliseconds = 0 then "0ns"
  else if whole = 0 then toString rest ++ "ms"
  else if rest = 0 then toString whole ++ "s"
  else toString whole ++ "." ++ thousandths rest ++ "s"

end Span

end ActionPlanning
