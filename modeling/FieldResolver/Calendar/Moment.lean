/-
**Moments and zones.**

A moment is a number of milliseconds since the start of 1970 in universal time. A zone is a fixed
number of seconds east of it, less than a day; a moment seen in a zone has a date and a time.
-/

import FieldResolver.Calendar.Date
import FieldResolver.Decimal.Reading
import FieldResolver.Decimal.Shortest
import FieldResolver.Text.Blank
import FieldResolver.Text.Search

namespace FieldResolver.Calendar

/-- A date and a time of the day to the millisecond. -/
structure Local where
  date : Date
  hour : Nat
  minute : Nat
  second : Nat
  millisecond : Nat
deriving DecidableEq

/-- What clocks and calendars show at a moment some seconds east. -/
def Local.ofMillis (millis offset : Int) : Local :=
  let shifted := millis + offset * 1000
  let days := shifted.fdiv dayMillis
  let rest := (shifted - days * dayMillis).toNat
  { date := Date.ofDays days
    hour := rest / 3600000
    minute := rest / 60000 % 60
    second := rest / 1000 % 60
    millisecond := rest % 1000 }

/-- Digits filled up with zeros in front. -/
def padded (width n : Nat) : List Char :=
  let digits := Decimal.natDigits n
  List.replicate (width - digits.length) '0' ++ digits

/-- A year: four digits, or a sign and at least four outside 0 to 9999. -/
def yearText (year : Int) : List Char :=
  if 0 ≤ year ∧ year ≤ 9999 then padded 4 year.toNat
  else (if year < 0 then '-' else '+') :: padded 4 year.natAbs

/-- An offset as a sign, hours and minutes, the seconds rounded. -/
def offsetText (colon : Bool) (offset : Int) : List Char :=
  let minutes := (offset.natAbs + 30) / 60
  (if offset < 0 then '-' else '+') ::
    (padded 2 (minutes / 60) ++ (if colon then [':'] else []) ++ padded 2 (minutes % 60))

/-- A moment in universal time, to the millisecond. -/
def isoText (millis : Int) : String :=
  let moment := Local.ofMillis millis 0
  String.ofList (yearText moment.date.year ++ '-' :: (padded 2 moment.date.month ++ '-' ::
    (padded 2 moment.date.day ++ 'T' :: (padded 2 moment.hour ++ ':' ::
      (padded 2 moment.minute ++ ':' :: (padded 2 moment.second ++ '.' ::
        (padded 3 moment.millisecond ++ ['Z'])))))))

/-- Takes from `least` to `most` digits as a number. -/
def digits? (least most : Nat) (text : List Char) : Option (Nat × List Char) :=
  let taken := (text.take most).takeWhile Decimal.isDigit
  if taken.length < least then none
  else some (Decimal.natOfDigits taken 0, text.drop taken.length)

/-- Takes one character that has to come next. -/
def char? (wanted : Char) : List Char → Option (List Char)
  | c :: rest => if c = wanted then some rest else none
  | [] => none

/-- The sign of an offset: plus, a hyphen or the minus sign of print. -/
def offsetSign? : List Char → Option (Int × List Char)
  | '+' :: rest => some (1, rest)
  | '-' :: rest => some (-1, rest)
  | '−' :: rest => some (-1, rest)
  | _ => none

/-- Drops colons and blanks. -/
def dropColons (text : List Char) : List Char :=
  text.dropWhile fun c => c == ':' || Text.isBlank c

/-- An offset with two digits of hours and two of minutes, between which `separator` reads. -/
def offset? (separator : List Char → Option (List Char)) (text : List Char) :
    Option (Int × List Char) := do
  let (sign, rest) ← offsetSign? text
  let (hours, rest) ← digits? 2 2 rest
  let rest ← separator rest
  let (minutes, rest) ← digits? 2 2 rest
  if minutes < 60 then some (sign * ((hours * 3600 + minutes * 60 : Nat) : Int), rest) else none

/-- An offset that is less than a day. -/
def withinDay (offset : Int) : Option Int := if offset.natAbs < 86400 then some offset else none

/-- An offset of a sign and exactly four digits, the last two of which may exceed an hour. -/
def compactOffset? (text : List Char) : Option Int :=
  match text with
  | sign :: a :: b :: c :: d :: [] =>
    if (sign = '+' || sign = '-') && [a, b, c, d].all Decimal.isDigit then
      let hours := Decimal.natOfDigits [a, b] 0
      let minutes := Decimal.natOfDigits [c, d] 0
      let size : Int := ((hours * 3600 + minutes * 60 : Nat) : Int)
      withinDay (if sign = '-' then -size else size)
    else none
  | _ => none

/-- The text behind `UTC` or `GMT`, or the whole text. -/
def withoutZoneName (text : List Char) : List Char :=
  match Text.dropFront? ['U', 'T', 'C'] text with
  | some rest => rest
  | none => (Text.dropFront? ['G', 'M', 'T'] text).getD text

/-- The seconds east of a zone: a name of universal time, or an offset, with `UTC` or `GMT` in front
or without. -/
def zone? (name : String) : Option Int :=
  if name = "UTC" || name = "Z" || name = "GMT" || name = "Etc/UTC" then some 0
  else
    let text := withoutZoneName name.toList
    match (offset? (fun rest => some (dropColons rest)) text).bind fun (offset, _) =>
        withinDay offset with
    | some offset => some offset
    | none => compactOffset? text

/-- A date and a time as milliseconds; a sixtieth second is the one after the fifty-ninth. -/
def millisOf (date : Date) (hour minute second millisecond : Nat) (offset : Int) : Int :=
  date.toDays * dayMillis +
    ((hour * 3600 + minute * 60 + second : Nat) - offset) * 1000 + millisecond

/-- A fraction of a second to the millisecond; digits behind the ninth do not count. -/
def fraction? : List Char → Option (Nat × List Char)
  | '.' :: rest =>
    let digits := rest.takeWhile Decimal.isDigit
    if digits.isEmpty then none
    else some (Decimal.natOfDigits ((digits ++ ['0', '0']).take 3) 0,
      rest.dropWhile Decimal.isDigit)
  | rest => some (0, rest)

/-- An offset of an ISO 8601 timestamp: `Z`, or hours, a colon and minutes. -/
def isoOffset? (text : List Char) : Option (Int × List Char) :=
  match text with
  | 'Z' :: rest => some (0, rest)
  | 'z' :: rest => some (0, rest)
  | _ => do
    let (offset, rest) ← offset? (char? ':') text
    if offset.natAbs ≤ (23 * 60 + 59) * 60 then some (offset, rest) else none

/-- The milliseconds of an ISO 8601 timestamp with a date, a time and an offset. -/
def ofIso? (text : List Char) : Option Int := do
  let (year, rest) ← digits? 4 4 text
  let (month, rest) ← digits? 2 2 (← char? '-' rest)
  let (day, rest) ← digits? 2 2 (← char? '-' rest)
  let rest ← match rest with
    | c :: rest => if c = 'T' || c = 't' || c = ' ' then some rest else none
    | [] => none
  let (hour, rest) ← digits? 2 2 rest
  let (minute, rest) ← digits? 2 2 (← char? ':' rest)
  let (second, rest) ← digits? 2 2 (← char? ':' rest)
  let (millisecond, rest) ← fraction? rest
  let (offset, rest) ← isoOffset? rest
  let date : Date := { year, month, day }
  if rest.isEmpty && date.isValid && decide (hour < 24 ∧ minute < 60 ∧ second ≤ 60) then
    some (millisOf date hour minute second millisecond offset)
  else none

end FieldResolver.Calendar
