import ActionPlanning.Document
import ActionPlanning.Time.Moment

/-!
# Moments in TOML

A moment is a date of the calendar, a time of day, or both, and then perhaps an offset from
universal time. One moment can be written in several ways; its text is the one that joins date and
time by `T`, has no zero at the end of a fraction of a second, and writes `Z` for universal time.
A document has no moments of its own: there one stands as a table with its text as the only entry.
-/

namespace ActionPlanning.Document.Toml

/-! ## Dates -/

/-- The number given by exactly `count` digits. -/
def fixedDigits? (count : Nat) (cs : List Char) : Reading Nat :=
  let digits := cs.take count
  if digits.length = count then (number? 10 digits).map (·, cs.drop count) else none

/-- The number of days of a month. -/
def daysIn (year month : Nat) : Nat :=
  if month = 2 then
    if year % 4 = 0 ∧ (year % 100 ≠ 0 ∨ year % 400 = 0) then 29 else 28
  else if month = 4 ∨ month = 6 ∨ month = 9 ∨ month = 11 then 30
  else 31

/-- Reads a date of the calendar. -/
def date? (cs : List Char) : Option (CivilDate × List Char) := do
  let (year, cs) ← fixedDigits? 4 cs
  let '-' :: cs := cs | none
  let (month, cs) ← fixedDigits? 2 cs
  let '-' :: cs := cs | none
  let (day, cs) ← fixedDigits? 2 cs
  if 1 ≤ month ∧ month ≤ 12 ∧ 1 ≤ day ∧ day ≤ daysIn year month then
    some (⟨year, month, day⟩, cs)
  else none

/-- Year, month and day with hyphens between them. -/
def dateText (date : CivilDate) : String :=
  Moment.yearText date.year ++ "-" ++ zeroPadded 2 date.month ++ "-" ++ zeroPadded 2 date.day

/-! ## Times of day -/

/-- A time of day. A minute may end in a leap second. -/
structure TimeOfDay where
  hour : Nat
  minute : Nat
  second : Nat
  nanoseconds : Nat
  deriving DecidableEq, Repr

namespace TimeOfDay

/-- Reads the fraction of a second in nanoseconds, if there is one. Digits after the ninth are
dropped. -/
def fraction? : List Char → Reading Nat
  | '.' :: rest =>
    match rest.takeWhile Char.isDigit with
    | [] => none
    | digits => (number? 10 ((digits ++ List.replicate 9 '0').take 9)).map
        (·, rest.dropWhile Char.isDigit)
  | cs => some (0, cs)

/-- Reads a time of day. -/
def read? (cs : List Char) : Option (TimeOfDay × List Char) := do
  let (hour, cs) ← fixedDigits? 2 cs
  let ':' :: cs := cs | none
  let (minute, cs) ← fixedDigits? 2 cs
  let ':' :: cs := cs | none
  let (second, cs) ← fixedDigits? 2 cs
  if hour > 23 ∨ minute > 59 ∨ second > 60 then none
  let (nanoseconds, cs) ← fraction? cs
  some (⟨hour, minute, second, nanoseconds⟩, cs)

/-- The digits of a fraction of a second without the zeros at their end. -/
def fractionText (nanoseconds : Nat) : String :=
  if nanoseconds = 0 then ""
  else "." ++
    String.ofList ((zeroPadded 9 nanoseconds).toList.reverse.dropWhile (· = '0')).reverse

/-- Hour, minute and second with colons between them, and the fraction of the second. -/
def text (t : TimeOfDay) : String :=
  zeroPadded 2 t.hour ++ ":" ++ zeroPadded 2 t.minute ++ ":" ++ zeroPadded 2 t.second
    ++ fractionText t.nanoseconds

end TimeOfDay

/-! ## Offsets -/

/-- How far a time is from universal time. -/
inductive Offset where
  | universal
  | minutes (ahead : Int)
  deriving DecidableEq, Repr

namespace Offset

/-- The offset that a text stands for. -/
def read? : List Char → Option Offset
  | ['Z'] | ['z'] => some .universal
  | '+' :: cs => (minutes? cs).map fun n => .minutes n
  | '-' :: cs => (minutes? cs).map fun n => .minutes (-n)
  | _ => none
where
  minutes? (cs : List Char) : Option Nat := do
    let (hour, cs) ← fixedDigits? 2 cs
    let ':' :: cs := cs | none
    let (minute, []) ← fixedDigits? 2 cs | none
    if hour ≤ 23 ∧ minute ≤ 59 then some (60 * hour + minute) else none

/-- `Z`, or a sign before the hours and minutes; no offset at all counts as ahead. -/
def text : Offset → String
  | universal => "Z"
  | minutes ahead =>
    (if ahead < 0 then "-" else "+") ++ zeroPadded 2 (ahead.natAbs / 60) ++ ":"
      ++ zeroPadded 2 (ahead.natAbs % 60)

end Offset

/-! ## Moments -/

/-- A date, a time of day, or both; an offset needs both. -/
inductive Timestamp where
  | date (date : CivilDate)
  | time (time : TimeOfDay)
  | dateTime (date : CivilDate) (time : TimeOfDay) (offset : Option Offset)
  deriving DecidableEq, Repr

namespace Timestamp

/-- The moment that a text stands for. -/
def read? (cs : List Char) : Option Timestamp :=
  match date? cs with
  | some (d, []) => some (.date d)
  | some (d, mark :: rest) =>
    if mark = 'T' ∨ mark = 't' ∨ mark = ' ' then
      match TimeOfDay.read? rest with
      | some (t, []) => some (.dateTime d t none)
      | some (t, offset) => (Offset.read? offset).map fun o => .dateTime d t (some o)
      | none => none
    else none
  | none =>
    match TimeOfDay.read? cs with
    | some (t, []) => some (.time t)
    | _ => none

/-- The text of a moment. -/
def text : Timestamp → String
  | date d => dateText d
  | time t => t.text
  | dateTime d t none => dateText d ++ "T" ++ t.text
  | dateTime d t (some offset) => dateText d ++ "T" ++ t.text ++ offset.text

/-- The key of the table that stands for a moment. -/
def key : String := "$__toml_private_datetime"

/-- What stands for a moment in a document. -/
def document (t : Timestamp) : Document := .table [(key, .text t.text)]

end Timestamp

end ActionPlanning.Document.Toml
