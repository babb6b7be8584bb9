/-!
# Moments

A moment counts seconds and nanoseconds from the start of 1970, without leap seconds. Its text
gives the civil date and the time of day in universal time. The date is found by counting days in
eras of 400 years, each of which has 146097 days; within an era the year starts in March, so that
the leap day is the last day of its year.
-/

namespace ActionPlanning

/-- Seconds since the start of 1970, and nanoseconds within the second. A nanosecond count from
one second on denotes the leap second that follows. -/
structure Moment where
  seconds : Int
  nanoseconds : Nat
  deriving DecidableEq, Repr, Inhabited

/-- A day of the civil calendar. -/
structure CivilDate where
  year : Int
  month : Nat
  day : Nat
  deriving DecidableEq, Repr

namespace CivilDate

/-- The date a number of days after the start of 1970. -/
def ofDays (days : Int) : CivilDate :=
  let fromMarch := days + 719468
  let era := Int.fdiv fromMarch 146097
  let dayOfEra := (Int.fmod fromMarch 146097).toNat
  let yearOfEra := (dayOfEra - dayOfEra / 1460 + dayOfEra / 36524 - dayOfEra / 146096) / 365
  let dayOfYear := dayOfEra - (365 * yearOfEra + yearOfEra / 4 - yearOfEra / 100)
  let shifted := (5 * dayOfYear + 2) / 153
  let day := dayOfYear - (153 * shifted + 2) / 5 + 1
  let month := if shifted < 10 then shifted + 3 else shifted - 9
  let year := era * 400 + yearOfEra + if month ≤ 2 then 1 else 0
  ⟨year, month, day⟩

end CivilDate

/-- A number in at least `width` digits, filled up with zeros in front. -/
def zeroPadded (width n : Nat) : String :=
  let digits := toString n
  String.ofList (List.replicate (width - digits.length) '0') ++ digits

namespace Moment

/-- A year has four digits; one that needs more, or lies before year zero, has a sign. -/
def yearText (year : Int) : String :=
  if 0 ≤ year ∧ year ≤ 9999 then zeroPadded 4 year.toNat
  else (if year < 0 then "-" else "+") ++ zeroPadded 4 year.natAbs

/-- The fraction of a second: no digits, or three, six or nine, as few as are exact. -/
def fractionText (nanoseconds : Nat) : String :=
  if nanoseconds = 0 then ""
  else if nanoseconds % 1000000 = 0 then "." ++ zeroPadded 3 (nanoseconds / 1000000)
  else if nanoseconds % 1000 = 0 then "." ++ zeroPadded 6 (nanoseconds / 1000)
  else "." ++ zeroPadded 9 nanoseconds

/-- Date, time of day and the offset of universal time, as RFC 3339 writes them. -/
def describe (m : Moment) : String :=
  let date := CivilDate.ofDays (Int.fdiv m.seconds 86400)
  let time := (Int.fmod m.seconds 86400).toNat
  let leap := m.nanoseconds / 1000000000
  yearText date.year ++ "-" ++ zeroPadded 2 date.month ++ "-" ++ zeroPadded 2 date.day ++ "T"
    ++ zeroPadded 2 (time / 3600) ++ ":" ++ zeroPadded 2 (time / 60 % 60) ++ ":"
    ++ zeroPadded 2 (time % 60 + leap) ++ fractionText (m.nanoseconds - leap * 1000000000)
    ++ "+00:00"

end Moment

end ActionPlanning
