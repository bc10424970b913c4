-- Calendar dates and points in time. A date is a day of the calendar; a point
-- in time adds the time of that day and, where it is known, how far its clock
-- is ahead of universal time.
namespace ComponentLint.Time

/-- Why numbers make no date or time. -/
inductive Fault where
  | year (n : Nat)
  | month
  | day
  | hour
  | minute
  | second
  /-- A clock a whole day or more away from universal time. -/
  | offset (seconds : Int)
  deriving DecidableEq, Repr

/-! ## Dates -/

/-- A day of the calendar. -/
structure Date where
  year : Nat
  month : Nat
  day : Nat
  deriving DecidableEq, Repr

/-- Whether a year has a leap day. -/
def isLeap (year : Nat) : Bool := year % 4 = 0 && (year % 100 ≠ 0 || year % 400 = 0)

/-- The number of days of a month. -/
def daysIn (year month : Nat) : Nat :=
  if month = 2 then (if isLeap year then 29 else 28)
  else if month = 4 || month = 6 || month = 9 || month = 11 then 30
  else 31

/-- The date with a given year, month and day. -/
def Date.ofParts (year month day : Nat) : Except Fault Date :=
  if year = 0 then .error (.year year)
  else if month = 0 || 12 < month then .error .month
  else if day = 0 || daysIn year month < day then .error .day
  else .ok ⟨year, month, day⟩

/-- The number of days of the years before one. -/
def daysBeforeYear (year : Nat) : Nat :=
  let past := year - 1
  365 * past + past / 4 - past / 100 + past / 400

/-- The number of a day, the first day of the first year being one. -/
def Date.number (d : Date) : Nat :=
  daysBeforeYear d.year
    + ((List.range (d.month - 1)).map fun m => daysIn d.year (m + 1)).foldl (· + ·) 0 + d.day

/-! ## Points in time -/

/-- A point in time as a clock shows it, with the seconds that the clock is ahead of universal
time, if they are known. -/
structure Moment where
  date : Date
  hour : Nat := 0
  minute : Nat := 0
  second : Nat := 0
  micro : Nat := 0
  offset : Option Int := none
  deriving DecidableEq, Repr

/-- The number of seconds of a day. -/
def secondsPerDay : Nat := 86400

/-- Checks that a clock is less than a day away from universal time. -/
def checkOffset (seconds : Int) : Except Fault Unit :=
  if seconds.natAbs < secondsPerDay then .ok () else .error (.offset seconds)

/-- The point in time with the given date and clock. -/
def Moment.ofParts (m : Moment) : Except Fault Moment := do
  if let some seconds := m.offset then checkOffset seconds
  let date ← Date.ofParts m.date.year m.date.month m.date.day
  if 23 < m.hour then throw .hour
  if 59 < m.minute then throw .minute
  if 59 < m.second then throw .second
  return { m with date }

/-- The microseconds from the start of the calendar to what a clock shows, when it is so many
seconds ahead. -/
def Moment.instant (m : Moment) (ahead : Int) : Int :=
  let seconds := ((m.date.number * 24 + m.hour) * 60 + m.minute) * 60 + m.second
  ((seconds : Int) - ahead) * 1000000 + m.micro

/-- Whether two points in time are the same. Two with a known offset are compared in universal
time; with and without one they never are the same. -/
def Moment.same (a b : Moment) : Bool :=
  match a.offset, b.offset with
  | none, none => a == b
  | some x, some y => a.instant x == b.instant y
  | _, _ => false

end ComponentLint.Time
