/-!
# Dates and instants

* `Date` : a day of the proleptic Gregorian calendar, `Date.dayNumber` its distance from 1970-01-01.
* `Clock` : a time of day; a leap second is a second 59 that is longer than a second.
* `Instant` : a point in time, ordered by seconds and then by the part of the second.
* `Instant.stamp` : the text of a point in time given in milliseconds.
-/

namespace ChartFeed

/-- A day as it is written. -/
structure Date where
  year : Int
  month : Nat
  day : Nat
  deriving DecidableEq, Repr

namespace Date

/-- Every fourth year but the hundredths, of which every fourth again. -/
def isLeap (year : Int) : Bool := year % 4 == 0 && (year % 100 != 0 || year % 400 == 0)

/-- The number of days of a month, none for a month that does not exist. -/
def daysInMonth (year : Int) : Nat → Nat
  | 1 | 3 | 5 | 7 | 8 | 10 | 12 => 31
  | 4 | 6 | 9 | 11 => 30
  | 2 => if isLeap year then 29 else 28
  | _ => 0

def isValid (d : Date) : Bool := 1 ≤ d.day && d.day ≤ daysInMonth d.year d.month

def daysBeforeMonth (year : Int) : Nat → Nat
  | 0 => 0
  | month + 1 => daysBeforeMonth year month + daysInMonth year month

/-- The number of days from the first of January of the year 1 to that of another year. -/
def daysBeforeYear (year : Int) : Int :=
  let past := year - 1
  365 * past + past / 4 - past / 100 + past / 400

/-- The number of days since 1970-01-01. -/
def dayNumber (d : Date) : Int :=
  daysBeforeYear d.year + daysBeforeMonth d.year d.month + d.day - 719163

/-- The day of a number. Years are counted from March, in eras of 400 years. -/
def ofDayNumber (n : Int) : Date :=
  let z := n + 719468
  let era := z / 146097
  let dayOfEra := z % 146097
  let yearOfEra := (dayOfEra - dayOfEra / 1460 + dayOfEra / 36524 - dayOfEra / 146096) / 365
  let dayOfYear := dayOfEra - (365 * yearOfEra + yearOfEra / 4 - yearOfEra / 100)
  let march := (5 * dayOfYear + 2) / 153
  let month := if march < 10 then march + 3 else march - 9
  { year := yearOfEra + era * 400 + (if month ≤ 2 then 1 else 0)
    month := month.toNat
    day := (dayOfYear - (153 * march + 2) / 5 + 1).toNat }

example : dayNumber ⟨1970, 1, 1⟩ = 0 := by decide
example : dayNumber ⟨2000, 3, 1⟩ = 11017 := by decide
example : ofDayNumber 11017 = ⟨2000, 3, 1⟩ := by decide
example : ofDayNumber (-719528) = ⟨0, 1, 1⟩ := by decide

end Date

/-- A time of day. -/
structure Clock where
  hour : Nat
  minute : Nat
  second : Nat
  nanos : Nat
  deriving DecidableEq, Repr

namespace Clock

/-- The time exists; second 60 does. -/
def isValid (c : Clock) : Bool := c.hour ≤ 23 && c.minute ≤ 59 && c.second ≤ 60

/-- The whole seconds since midnight, second 60 counting as second 59. -/
def seconds (c : Clock) : Nat := 3600 * c.hour + 60 * c.minute + min c.second 59

/-- The nanoseconds past the whole seconds; those of second 60 follow on those of second 59. -/
def excess (c : Clock) : Nat := c.nanos + (c.second - 59) * 1000000000

end Clock

/-- A point in time: whole seconds since 1970-01-01 and the nanoseconds past them. -/
structure Instant where
  seconds : Int
  nanos : Nat
  deriving DecidableEq, Repr

namespace Instant

/-- The point in time at which clocks that are `offset` seconds ahead show a date and a time. -/
def ofLocal (d : Date) (c : Clock) (offset : Int) : Instant :=
  ⟨86400 * d.dayNumber + c.seconds - offset, c.excess⟩

def isBefore (a b : Instant) : Bool :=
  a.seconds < b.seconds || (a.seconds == b.seconds && a.nanos < b.nanos)

/-! ## Stamps -/

/-- A number in decimal digits, with zeros in front up to a width. -/
def padded (width n : Nat) : List Char :=
  let ds := Nat.toDigits 10 n
  List.replicate (width - ds.length) '0' ++ ds

/-- A point in time in milliseconds since 1970-01-01, as `YYYY-MM-DDThh:mm:ss.mmmZ`. -/
def stamp (millis : Int) : String :=
  let d := Date.ofDayNumber (millis / 86400000)
  let ms := (millis % 86400000).toNat
  String.ofList (padded 4 d.year.toNat ++ '-' :: padded 2 d.month ++ '-' :: padded 2 d.day ++
    'T' :: padded 2 (ms / 3600000) ++ ':' :: padded 2 (ms / 60000 % 60) ++
    ':' :: padded 2 (ms / 1000 % 60) ++ '.' :: padded 3 (ms % 1000) ++ ['Z'])

end Instant

end ChartFeed
