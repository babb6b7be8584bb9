import ActionPlanning.Amount.Order

/-!
# Decimal numerals

A numeral `digits * 10 ^ exponent` names the amount nearest to it. In the other direction an
amount is written by the numeral with the fewest digits that names it; of two such numerals the
nearer one is taken, and a tie goes up. The selection works on the exact value of the amount, a
natural number times a power of two, so no rounding happens on the way.
-/

namespace ActionPlanning.Amount

/-- The numeral `digits * 10 ^ exponent`. -/
structure Decimal where
  digits : Nat
  exponent : Int
  deriving DecidableEq, Repr

/-- The number of decimal digits of a natural number; zero has one. -/
def digitCount (n : Nat) : Nat := (Nat.toDigits 10 n).length

namespace Decimal

/-- The amount nearest to a numeral. Numerals beyond the range are cut off before any large
power of ten is formed: from `10 ^ 310` on they are infinite, and below `10 ^ -400` they are
zero. -/
def toAmount (d : Decimal) : Amount :=
  if d.digits = 0 then 0
  else
    let magnitude := d.exponent + digitCount d.digits
    if magnitude > 310 then Float.ofScientific 1 false 400
    else if magnitude < -400 then 0
    else Float.ofScientific d.digits (d.exponent < 0) d.exponent.natAbs

/-- Moves up to `fuel` trailing zeros of the digits into the exponent. -/
def stripZeros : Nat → Decimal → Decimal
  | 0, d => d
  | fuel + 1, d =>
    if d.digits ≠ 0 ∧ d.digits % 10 = 0 then stripZeros fuel ⟨d.digits / 10, d.exponent + 1⟩
    else d

end Decimal

/-- The exact value `mantissa * 2 ^ power` of a finite nonnegative amount. -/
structure Exact where
  mantissa : Nat
  power : Int

namespace Exact

/-- The exact magnitude of a finite amount. -/
def ofAmount (x : Amount) : Exact :=
  let bits := x.toBits.toNat
  let hidden := 1 <<< 52
  let field := bits / hidden % 2048
  let fraction := bits % hidden
  if field = 0 then ⟨fraction, -1074⟩ else ⟨hidden + fraction, Int.ofNat field - 1075⟩

/-- The numerator of the value as a fraction. -/
def numerator (e : Exact) : Nat := e.mantissa <<< e.power.toNat

/-- The denominator of the value as a fraction, a power of two. -/
def denominator (e : Exact) : Nat := 1 <<< (-e.power).toNat

/-- The least `k` such that the value is below `10 ^ k`, for a positive value. -/
def scale (e : Exact) : Int :=
  let whole := e.numerator / e.denominator
  if whole ≠ 0 then digitCount whole
  else
    let inverse := (e.denominator + e.numerator - 1) / e.numerator
    1 - (digitCount (inverse - 1) : Int)

/-- The value divided by `10 ^ unit`, rounded down, with the remainder and the divisor that say
how far the quotient is from the next one. -/
def quotient (e : Exact) (unit : Int) : Nat × Nat × Nat :=
  let top := e.numerator * Nat.pow 10 (-unit).toNat
  let bottom := e.denominator * Nat.pow 10 unit.toNat
  (top / bottom, top % bottom, bottom)

/-- The numeral of `count` digits that names the amount `x`, if one of the two neighbours of its
exact value on that grid does: the nearer one if both do, the upper one on a tie. -/
def numeral? (e : Exact) (x : Amount) (count : Nat) : Option Decimal :=
  let unit := e.scale - count
  let (floor, remainder, bottom) := e.quotient unit
  let lower : Decimal := ⟨floor, unit⟩
  let upper : Decimal := ⟨floor + 1, unit⟩
  let lowerNames := lower.toAmount.toBits == x.toBits
  let upperNames := upper.toAmount.toBits == x.toBits
  if lowerNames && (!upperNames || 2 * remainder < bottom) then some lower
  else if upperNames then some upper
  else none

/-- The exact value as a numeral, without rounding. -/
def numeral (e : Exact) : Decimal :=
  if e.power < 0 then ⟨e.mantissa * Nat.pow 5 (-e.power).toNat, e.power⟩ else ⟨e.numerator, 0⟩

end Exact

/-- The shortest numeral of a finite positive amount. Seventeen digits are enough to tell all
amounts apart; should none of the grids up to there hold a numeral, the exact value is given. -/
def shortest (x : Amount) : Decimal :=
  let exact := Exact.ofAmount x
  let found := (List.range' 1 17).findSome? (exact.numeral? x)
  (found.getD exact.numeral).stripZeros 400

end ActionPlanning.Amount
