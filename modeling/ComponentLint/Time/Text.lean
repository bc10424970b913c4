-- Dates and points in time as text. The plain form puts the parts from the
-- year down between dashes and colons; the written form names the kind of
-- value and lists its parts.
import ComponentLint.Time.Basic

namespace ComponentLint.Time

/-- A number with at least so many digits. -/
def padded (width n : Nat) : String :=
  let digits := Nat.toDigits 10 n
  String.ofList (List.replicate (width - digits.length) '0' ++ digits)

/-! ## The plain form -/

/-- The plain form of a date. -/
def Date.toText (d : Date) : String :=
  s!"{padded 4 d.year}-{padded 2 d.month}-{padded 2 d.day}"

/-- The plain form of an offset; its seconds are left out when there are none. -/
def offsetText (seconds : Int) : String :=
  let n := seconds.natAbs
  let rest := if n % 60 = 0 then "" else ":" ++ padded 2 (n % 60)
  (if seconds < 0 then "-" else "+") ++ s!"{padded 2 (n / 3600)}:{padded 2 (n / 60 % 60)}" ++ rest

/-- The plain form of a point in time; a fraction that is zero is left out. -/
def Moment.toText (m : Moment) : String :=
  let fraction := if m.micro = 0 then "" else "." ++ padded 6 m.micro
  s!"{m.date.toText} {padded 2 m.hour}:{padded 2 m.minute}:{padded 2 m.second}" ++ fraction
    ++ (m.offset.map offsetText).getD ""

/-! ## The written form -/

/-- The written form of a duration: whole days, which may be negative, and the seconds beyond
them. -/
def durationWritten (seconds : Int) : String :=
  let days := Int.fdiv seconds secondsPerDay
  let rest := Int.fmod seconds secondsPerDay
  let parts := (if days = 0 then [] else [s!"days={days}"])
    ++ (if rest = 0 then [] else [s!"seconds={rest}"])
  "datetime.timedelta(" ++ (if parts.isEmpty then "0" else ", ".intercalate parts) ++ ")"

/-- The written form of an offset. -/
def offsetWritten (seconds : Int) : String :=
  if seconds = 0 then "datetime.timezone.utc"
  else "datetime.timezone(" ++ durationWritten seconds ++ ")"

/-- The written form of a date. -/
def Date.written (d : Date) : String := s!"datetime.date({d.year}, {d.month}, {d.day})"

/-- The written form of a point in time; microseconds that are zero are left out, and then seconds
that are zero. -/
def Moment.written (m : Moment) : String :=
  let clock :=
    if m.micro ≠ 0 then [m.second, m.micro] else if m.second ≠ 0 then [m.second] else []
  let parts := ([m.date.year, m.date.month, m.date.day, m.hour, m.minute] ++ clock).map toString
  let zone := m.offset.toList.map fun seconds => "tzinfo=" ++ offsetWritten seconds
  "datetime.datetime(" ++ ", ".intercalate (parts ++ zone) ++ ")"

/-- The wording of a fault. -/
def Fault.message : Fault → String
  | year n => s!"year {n} is out of range"
  | month => "month must be in 1..12"
  | day => "day is out of range for month"
  | hour => "hour must be in 0..23"
  | minute => "minute must be in 0..59"
  | second => "second must be in 0..59"
  | offset seconds =>
    "offset must be a timedelta strictly between -timedelta(hours=24) and timedelta(hours=24), not "
      ++ durationWritten seconds ++ "."

end ComponentLint.Time
