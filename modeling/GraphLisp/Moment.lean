/-!
# Dates and moments

A date of the common calendar, alone or with a time of day, which may be given by its distance
from universal time. `Moment.flaw?` says what keeps the numbers of a moment from being one.
-/

namespace GraphLisp

/-- A time of day, and its distance from universal time in seconds. -/
structure Clock where
  hour : Nat
  minute : Nat
  second : Nat
  microsecond : Nat
  offset : Option Int
deriving DecidableEq

/-- A date, or a moment on that date. -/
structure Moment where
  year : Nat
  month : Nat
  day : Nat
  clock : Option Clock
deriving DecidableEq

/-- A number in decimal digits, at least `width` of them. -/
def paddedNat (width n : Nat) : String :=
  let digits := Nat.toDigits 10 n
  String.ofList (List.replicate (width - digits.length) '0' ++ digits)

/-! ## The calendar -/

/-- Whether a year has a leap day. -/
def isLeapYear (year : Nat) : Bool := year % 4 == 0 && (year % 100 != 0 || year % 400 == 0)

/-- How many days a month has. -/
def daysInMonth (year month : Nat) : Nat :=
  if month = 2 then (if isLeapYear year then 29 else 28)
  else if month ∈ [4, 6, 9, 11] then 30 else 31

namespace Moment

/-- How many days lie before a date, from the start of year 0 on. -/
def dayNumber (m : Moment) : Nat :=
  let years := m.year - 1
  365 * m.year + years / 4 - years / 100 + years / 400 +
    (List.range (m.month - 1)).foldl (fun days i => days + daysInMonth m.year (i + 1)) 0 + m.day

/-- The microseconds up to a moment, by its own clock. -/
def ticks (m : Moment) (c : Clock) : Int :=
  Int.ofNat ((((m.dayNumber * 24 + c.hour) * 60 + c.minute) * 60 + c.second) * 1000000 +
    c.microsecond)

/-- Whether two moments are the same. Two with a distance from universal time are compared by
that time. -/
def same (a b : Moment) : Bool :=
  match a.clock, b.clock with
  | some c, some d =>
    match c.offset, d.offset with
    | some o, some p => a.ticks c - o * 1000000 == b.ticks d - p * 1000000
    | _, _ => decide (a = b)
  | _, _ => decide (a = b)

end Moment

/-! ## Wording -/

/-- A span of time as messages show it: whole days, and the seconds beyond them. -/
def shownSpan (seconds : Int) : String :=
  let days := seconds.fdiv 86400
  let rest := seconds.fmod 86400
  let parts := (if days = 0 then [] else [s!"days={days}"]) ++
    (if rest = 0 then [] else [s!"seconds={rest}"])
  "datetime.timedelta(" ++ (if parts.isEmpty then "0" else ", ".intercalate parts) ++ ")"

/-- A distance from universal time as messages show it. -/
def shownOffset (seconds : Int) : String :=
  if seconds = 0 then "datetime.timezone.utc" else "datetime.timezone(" ++ shownSpan seconds ++ ")"

/-- A distance from universal time in hours and minutes. -/
def offsetText (seconds : Int) : String :=
  let minutes := seconds.natAbs / 60
  (if seconds < 0 then "-" else "+") ++ paddedNat 2 (minutes / 60) ++ ":" ++
    paddedNat 2 (minutes % 60)

namespace Moment

/-- The moment as messages show it. -/
def shown (m : Moment) : String :=
  let date := [m.year, m.month, m.day]
  match m.clock with
  | none => "datetime.date(" ++ ", ".intercalate (date.map toString) ++ ")"
  | some c =>
    let seconds := if c.microsecond != 0 then [c.second, c.microsecond]
      else if c.second != 0 then [c.second] else []
    let numbers := (date ++ [c.hour, c.minute] ++ seconds).map toString
    let zone := (c.offset.map fun o => "tzinfo=" ++ shownOffset o).toList
    "datetime.datetime(" ++ ", ".intercalate (numbers ++ zone) ++ ")"

/-- The moment as a text. -/
def text (m : Moment) : String :=
  let date := "-".intercalate [paddedNat 4 m.year, paddedNat 2 m.month, paddedNat 2 m.day]
  match m.clock with
  | none => date
  | some c =>
    let time := ":".intercalate [paddedNat 2 c.hour, paddedNat 2 c.minute, paddedNat 2 c.second]
    let fraction := if c.microsecond = 0 then "" else "." ++ paddedNat 6 c.microsecond
    date ++ " " ++ time ++ fraction ++ (c.offset.map offsetText).getD ""

/-- What is wrong with a distance from universal time: it has to be less than a day. -/
def offsetFlaw? (seconds : Int) : Option String :=
  if seconds.natAbs < 86400 then none
  else some ("offset must be a timedelta strictly between -timedelta(hours=24) and " ++
    "timedelta(hours=24), not " ++ shownSpan seconds ++ ".")

/-- What is wrong with a time of day. -/
def clockFlaw? (c : Clock) : Option String :=
  if 24 ≤ c.hour then some "hour must be in 0..23"
  else if 60 ≤ c.minute then some "minute must be in 0..59"
  else if 60 ≤ c.second then some "second must be in 0..59"
  else none

/-- What is wrong with a date. -/
def dateFlaw? (m : Moment) : Option String :=
  if m.year = 0 ∨ 9999 < m.year then some s!"year {m.year} is out of range"
  else if m.month = 0 ∨ 12 < m.month then some "month must be in 1..12"
  else if m.day = 0 ∨ daysInMonth m.year m.month < m.day then
    some "day is out of range for month"
  else none

/-- What is wrong with the numbers of a moment, the distance from universal time first. -/
def flaw? (m : Moment) : Option String :=
  ((m.clock.bind (·.offset)).bind offsetFlaw?).or (m.dateFlaw?.or (m.clock.bind clockFlaw?))

end Moment

end GraphLisp
