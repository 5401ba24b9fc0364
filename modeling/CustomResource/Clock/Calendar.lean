/-!
# Dates and times of day

Days of the proleptic Gregorian calendar and times of day with nanoseconds. Both carry the proof
that they exist.

## Main definitions

* `Date`: a day, with `ofParts?`, `next?`, `previous?` and `dayNumber`.
* `TimeOfDay`: a time of day, with `secondOfDay`; second sixty is a leap second.
-/

namespace CustomResource

/-- Whether a year has a 29th of February. -/
def isLeapYear (year : Int) : Bool :=
  year % 4 = 0 && (year % 100 ≠ 0 || year % 400 = 0)

/-- The number of days of a month; none for a month that does not exist. -/
def daysInMonth (year : Int) (month : Nat) : Nat :=
  if month = 2 then (if isLeapYear year then 29 else 28)
  else if month = 4 ∨ month = 6 ∨ month = 9 ∨ month = 11 then 30
  else if 1 ≤ month ∧ month ≤ 12 then 31
  else 0

/-- Whether a day exists, in the years that the calendar covers. -/
def Date.Exists (year : Int) (month day : Nat) : Prop :=
  -262143 ≤ year ∧ year ≤ 262142 ∧ 1 ≤ day ∧ day ≤ daysInMonth year month

instance (year : Int) (month day : Nat) : Decidable (Date.Exists year month day) :=
  inferInstanceAs (Decidable (_ ∧ _ ∧ _ ∧ _))

/-- A day of the calendar. -/
structure Date where
  year : Int
  month : Nat
  day : Nat
  is_valid : Date.Exists year month day
  deriving DecidableEq, Repr

namespace Date

/-- The day of that year, month and day of the month, if it exists. -/
def ofParts? (year : Int) (month day : Nat) : Option Date :=
  if h : Date.Exists year month day then some ⟨year, month, day, h⟩ else none

/-- The day after a day, if the calendar covers it. -/
def next? (d : Date) : Option Date :=
  (ofParts? d.year d.month (d.day + 1)).or
    ((ofParts? d.year (d.month + 1) 1).or (ofParts? (d.year + 1) 1 1))

/-- The day before a day, if the calendar covers it. -/
def previous? (d : Date) : Option Date :=
  (ofParts? d.year d.month (d.day - 1)).or
    ((ofParts? d.year (d.month - 1) (daysInMonth d.year (d.month - 1))).or
      (ofParts? (d.year - 1) 12 31))

/-- The number of days from the first day of 1970 to a day. The years are counted from March on, so
that a 29th of February is the last day of its year. -/
def dayNumber (d : Date) : Int :=
  let year := if d.month ≤ 2 then d.year - 1 else d.year
  let month : Int := (d.month + 9) % 12
  365 * year + year / 4 - year / 100 + year / 400 + (153 * month + 2) / 5 + d.day - 719469

end Date

/-- A time of day. Second sixty is a leap second. -/
structure TimeOfDay where
  hour : Nat
  minute : Nat
  second : Nat
  nanosecond : Nat
  is_valid : hour < 24 ∧ minute < 60 ∧ second ≤ 60 ∧ nanosecond < 1000000000
  deriving DecidableEq, Repr

namespace TimeOfDay

/-- The time of day of that hour, minute, second and nanosecond, if it exists. -/
def ofParts? (hour minute second nanosecond : Nat) : Option TimeOfDay :=
  if h : hour < 24 ∧ minute < 60 ∧ second ≤ 60 ∧ nanosecond < 1000000000 then
    some ⟨hour, minute, second, nanosecond, h⟩
  else none

/-- The time of day some minutes earlier, and by how many days the date changes with it. The minutes
may be negative. -/
def minusMinutes (t : TimeOfDay) (minutes : Int) : TimeOfDay × Int :=
  let total : Int := t.hour * 60 + t.minute - minutes
  let ofDay := (total % 1440).toNat
  have h : ofDay < 1440 := by omega
  ⟨⟨ofDay / 60, ofDay % 60, t.second, t.nanosecond, by
      have := t.is_valid
      omega⟩, total / 1440⟩

/-- The number of seconds from midnight to a time of day. -/
def secondOfDay (t : TimeOfDay) : Nat := t.hour * 3600 + t.minute * 60 + t.second

end TimeOfDay

end CustomResource
