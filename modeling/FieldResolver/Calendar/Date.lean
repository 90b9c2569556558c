/-
**Days of the calendar.**

Days are counted from 1 January 1970 in the Gregorian calendar, continued backwards. A year of four
hundred has 146097 days; counting it from March puts the leap day at its end.
-/

namespace FieldResolver.Calendar

/-- A day of a month of a year. -/
structure Date where
  year : Int
  month : Nat
  day : Nat
deriving DecidableEq

/-- Whether a year has a leap day. -/
def isLeap (year : Int) : Bool := year % 4 == 0 && (year % 100 != 0 || year % 400 == 0)

/-- The number of days of a month. -/
def monthLength (year : Int) (month : Nat) : Nat :=
  match month with
  | 2 => if isLeap year then 29 else 28
  | 4 | 6 | 9 | 11 => 30
  | _ => 31

/-- The days of a year in front of a month. -/
def daysBefore (year : Int) (month : Nat) : Nat :=
  (List.range (month - 1)).foldl (fun sum m => sum + monthLength year (m + 1)) 0

/-- The least and the greatest year that dates reach. -/
def firstYear : Int := -262143
@[inherit_doc firstYear] def lastYear : Int := 262142

namespace Date

/-- Whether the day exists and its year is within reach. -/
def isValid (date : Date) : Bool :=
  decide (firstYear ≤ date.year ∧ date.year ≤ lastYear ∧ 1 ≤ date.month ∧ date.month ≤ 12 ∧
    1 ≤ date.day ∧ date.day ≤ monthLength date.year date.month)

/-- The number of a day. -/
def toDays (date : Date) : Int :=
  let year := if date.month ≤ 2 then date.year - 1 else date.year
  let era := year.fdiv 400
  let yearOfEra := year - era * 400
  let monthFromMarch : Int := if 2 < date.month then date.month - 3 else date.month + 9
  let dayOfYear := (153 * monthFromMarch + 2) / 5 + date.day - 1
  let dayOfEra := yearOfEra * 365 + yearOfEra / 4 - yearOfEra / 100 + dayOfYear
  era * 146097 + dayOfEra - 719468

/-- The day of a number. -/
def ofDays (days : Int) : Date :=
  let shifted := days + 719468
  let era := shifted.fdiv 146097
  let dayOfEra := shifted - era * 146097
  let yearOfEra := (dayOfEra - dayOfEra / 1460 + dayOfEra / 36524 - dayOfEra / 146096) / 365
  let dayOfYear := dayOfEra - (365 * yearOfEra + yearOfEra / 4 - yearOfEra / 100)
  let monthFromMarch := (5 * dayOfYear + 2) / 153
  let day := dayOfYear - (153 * monthFromMarch + 2) / 5 + 1
  let month := if monthFromMarch < 10 then monthFromMarch + 3 else monthFromMarch - 9
  let year := yearOfEra + era * 400
  { year := if month ≤ 2 then year + 1 else year, month := month.toNat, day := day.toNat }

/-- The place of a day in its year, from one. -/
def ordinal (date : Date) : Nat := daysBefore date.year date.month + date.day

/-- The day of the week, from Monday as zero. -/
def weekday (date : Date) : Nat := ((date.toDays + 3).emod 7).toNat

/-- The day with a place in a year. -/
def ofOrdinal? (year : Int) (place : Nat) : Option Date :=
  let length := if isLeap year then 366 else 365
  if 1 ≤ place ∧ place ≤ length ∧ firstYear ≤ year ∧ year ≤ lastYear then
    some (ofDays (({ year, month := 1, day := 1 } : Date).toDays + place - 1))
  else none

end Date

/-- The names of the months. -/
def monthNames : List String :=
  ["January", "February", "March", "April", "May", "June", "July", "August", "September",
   "October", "November", "December"]

/-- The names of the days of the week. -/
def weekdayNames : List String :=
  ["Monday", "Tuesday", "Wednesday", "Thursday", "Friday", "Saturday", "Sunday"]

/-- Milliseconds of a day. -/
def dayMillis : Int := 86400000

/-- The first and the last millisecond within reach of dates. -/
def firstMillis : Int := ({ year := firstYear, month := 1, day := 1 } : Date).toDays * dayMillis
@[inherit_doc firstMillis] def lastMillis : Int :=
  (({ year := lastYear, month := 12, day := 31 } : Date).toDays + 1) * dayMillis - 1

end FieldResolver.Calendar
