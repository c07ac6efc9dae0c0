/-! # Points in time

A point in time by the Gregorian calendar and the clock of a zone, and what follows from it: the day
of the week and of the year, weeks, and the number of seconds since 1970. -/

namespace HubConsole.Clock

/-- How far the clocks are ahead of UTC, in seconds. -/
class Zone where
  offset : Int
deriving DecidableEq, Repr

/-- The zone is UTC where no other is given. -/
instance : Zone := ⟨0⟩

structure Time where
  [zone : Zone]
  year : Int
  month : Nat
  day : Nat
  hour : Nat
  minute : Nat
  second : Nat
  /-- Nanoseconds; a leap second is written as one second and more. -/
  nanosecond : Nat
deriving DecidableEq, Repr

def isLeapYear (y : Int) : Bool := y % 4 == 0 && (y % 100 != 0 || y % 400 == 0)

def daysInYear (y : Int) : Nat := if isLeapYear y then 366 else 365

def daysBeforeMonth (y : Int) (month : Nat) : Nat :=
  let leap := if isLeapYear y then 1 else 0
  match month with
  | 1 => 0
  | 2 => 31
  | 3 => 59 + leap
  | 4 => 90 + leap
  | 5 => 120 + leap
  | 6 => 151 + leap
  | 7 => 181 + leap
  | 8 => 212 + leap
  | 9 => 243 + leap
  | 10 => 273 + leap
  | 11 => 304 + leap
  | _ => 334 + leap

/-- The number of days from the first of January 1970 to the first of January of `y`. -/
def daysBeforeYear (y : Int) : Int :=
  let p := y - 1
  365 * p + p / 4 - p / 100 + p / 400 - 719162

namespace Time

/-- The day of the year, counted from one. -/
def dayOfYear (t : Time) : Nat := daysBeforeMonth t.year t.month + t.day

def days (t : Time) : Int := daysBeforeYear t.year + t.dayOfYear - 1

def daysSinceMonday (t : Time) : Nat := ((t.days + 3) % 7).toNat

def daysSinceSunday (t : Time) : Nat := (t.daysSinceMonday + 1) % 7

/-- The week of the year, where the first Sunday begins week one. -/
def weekFromSunday (t : Time) : Nat := (t.dayOfYear + 6 - t.daysSinceSunday) / 7

def weekFromMonday (t : Time) : Nat := (t.dayOfYear + 6 - t.daysSinceMonday) / 7

/-- The year that the week belongs to, and the week's number in it: a week belongs to the year in
which its Thursday lies. -/
def isoWeek (t : Time) : Int × Nat :=
  let thursday : Int := (t.dayOfYear : Int) + 3 - t.daysSinceMonday
  if thursday < 1 then
    let before := t.year - 1
    (before, ((thursday + daysInYear before - 1) / 7 + 1).toNat)
  else if (daysInYear t.year : Int) < thursday then (t.year + 1, 1)
  else (t.year, ((thursday - 1) / 7 + 1).toNat)

def quarter (t : Time) : Nat := (t.month + 2) / 3

def hour12 (t : Time) : Nat := if t.hour % 12 = 0 then 12 else t.hour % 12

def isAfternoon (t : Time) : Bool := 12 ≤ t.hour

/-- The seconds of the minute; 60 in a leap second. -/
def shownSecond (t : Time) : Nat := t.second + t.nanosecond / 1000000000

def shownNanosecond (t : Time) : Nat := t.nanosecond % 1000000000

def timestamp (t : Time) : Int :=
  t.days * 86400 + t.hour * 3600 + t.minute * 60 + t.second - t.zone.offset

end Time

def Time.ofTimestamp (seconds : Int) (nanosecond : Nat) (offset : Int := 0) : Time :=
  let shown := seconds + offset
  let day := shown / 86400
  let rest := (shown % 86400).toNat
  -- Years are counted from March, so that a leap day ends one.
  let shifted := day + 719468
  let era := shifted / 146097
  let dayOfEra := (shifted % 146097).toNat
  let yearOfEra := (dayOfEra - dayOfEra / 1460 + dayOfEra / 36524 - dayOfEra / 146096) / 365
  let dayOfYear := dayOfEra - (365 * yearOfEra + yearOfEra / 4 - yearOfEra / 100)
  let m := (5 * dayOfYear + 2) / 153
  let month := if m < 10 then m + 3 else m - 9
  let year := era * 400 + yearOfEra + (if month ≤ 2 then 1 else 0)
  { zone := ⟨offset⟩, year, month, day := dayOfYear - (153 * m + 2) / 5 + 1
    hour := rest / 3600, minute := rest / 60 % 60, second := rest % 60, nanosecond }

end HubConsole.Clock
