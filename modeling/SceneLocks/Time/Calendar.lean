/-!
# The calendar

Days of the Gregorian calendar, extended to all years, and moments of such days in
universal time. The last second of a minute may be a leap second.
-/

namespace SceneLocks.Time

/-- A day. -/
structure Date where
  year : Int
  month : Nat
  day : Nat
deriving DecidableEq, Repr, Inhabited

namespace Date

def isLeapYear (year : Int) : Bool :=
  year % 4 = 0 && (year % 100 ≠ 0 || year % 400 = 0)

/-- The number of days of a month. -/
def monthLength (year : Int) (month : Nat) : Nat :=
  if month = 2 then (if isLeapYear year then 29 else 28)
  else if month = 4 ∨ month = 6 ∨ month = 9 ∨ month = 11 then 30
  else 31

/-- Whether the calendar has the day. -/
def isValid (d : Date) : Bool :=
  1 ≤ d.month && d.month ≤ 12 && 1 ≤ d.day && d.day ≤ monthLength d.year d.month

/-- The first day of a year. -/
def newYear (year : Int) : Date := ⟨year, 1, 1⟩

/-- The day after. -/
def next (d : Date) : Date :=
  if d.day < monthLength d.year d.month then { d with day := d.day + 1 }
  else if d.month < 12 then ⟨d.year, d.month + 1, 1⟩
  else newYear (d.year + 1)

/-- The day before. -/
def previous (d : Date) : Date :=
  if 1 < d.day then { d with day := d.day - 1 }
  else if 1 < d.month then ⟨d.year, d.month - 1, monthLength d.year (d.month - 1)⟩
  else ⟨d.year - 1, 12, 31⟩

/-- The years that a moment can lie in. -/
def inRange (d : Date) : Bool := -262143 ≤ d.year && d.year ≤ 262142

end Date

/-- A moment in universal time. -/
structure Moment where
  date : Date
  hour : Nat
  minute : Nat
  /-- Up to 60, in a leap second. -/
  second : Nat
  nanos : Nat
deriving DecidableEq, Repr, Inhabited

namespace Moment

/-- The moment that instants of machines are counted from. -/
def epoch : Moment := ⟨.newYear 1970, 0, 0, 0, 0⟩

/-- Takes a moment given at an offset of so many minutes, less than a day, to universal
time. -/
def fromOffset (m : Moment) (minutes : Int) : Moment :=
  let total := (m.hour * 60 + m.minute : Int) - minutes
  let date := if total < 0 then m.date.previous else if 1440 ≤ total then m.date.next else m.date
  let rest := (total % 1440).toNat
  { m with date, hour := rest / 60, minute := rest % 60 }

end Moment

end SceneLocks.Time
