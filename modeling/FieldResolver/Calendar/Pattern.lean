/-
**Date patterns.**

A pattern is text in which runs of letters stand for parts of a date: `yyyy-MM-dd`. A single quote
opens text that is meant literally and runs to the next single quote; two quotes outside such text
stand for one. `Pattern.parse` splits a pattern into pieces, `Pattern.format` writes a moment, and
`Pattern.read` finds the moment that a text writes.

Reading is lenient where writing is strict: blanks of the pattern match any number of blanks, blanks
in front of a number are skipped, a number may have fewer digits than are written, and names are
compared without regard to case.
-/

import FieldResolver.Calendar.Moment

namespace FieldResolver.Calendar

/-- A piece of a date pattern. -/
inductive Piece where
  | literal (c : Char)
  | year
  /-- The last two digits of the year. -/
  | yearOfCentury
  | month (padded : Bool)
  | monthName (short : Bool)
  | day (padded : Bool)
  | dayOfYear
  | hour (padded : Bool)
  /-- The hour from 1 to 12. -/
  | hourOfHalf (padded : Bool)
  | minute (padded : Bool)
  | second (padded : Bool)
  /-- The fraction of the second with a number of places. -/
  | fraction (places : Nat)
  | halfDay
  | weekdayName (short : Bool)
  | offset (colon : Bool)
  /-- The zone's name, which for a fixed offset is the offset with a colon. -/
  | zoneName
deriving DecidableEq

/-- A date pattern. -/
abbrev Pattern := List Piece

namespace Pattern

/-- The piece that a run of one letter stands for. -/
def piece? (letter : Char) (length : Nat) : Option Piece :=
  match letter with
  | 'y' | 'u' => some (if length = 2 then .yearOfCentury else .year)
  | 'M' =>
    some (match length with
      | 1 => .month false
      | 2 => .month true
      | 3 => .monthName true
      | _ => .monthName false)
  | 'd' => some (.day (length != 1))
  | 'D' => some .dayOfYear
  | 'H' => some (.hour (length != 1))
  | 'h' => some (.hourOfHalf (length != 1))
  | 'm' => some (.minute (length != 1))
  | 's' => some (.second (length != 1))
  | 'S' => some (.fraction (if length ≤ 3 then 3 else if length ≤ 6 then 6 else 9))
  | 'a' => some .halfDay
  | 'E' => some (.weekdayName (decide (length ≤ 3)))
  | 'Z' => some (.offset false)
  | 'X' | 'x' => some (.offset (decide (2 < length)))
  | 'z' => some .zoneName
  | _ => none

/-- Reads a pattern of at most `budget` characters; fails with a letter that means nothing. -/
def parseWithin : Nat → List Char → Except Char Pattern
  | 0, _ => .ok []
  | _, [] => .ok []
  | budget + 1, '\'' :: '\'' :: rest => (parseWithin budget rest).map (.literal '\'' :: ·)
  | budget + 1, '\'' :: rest =>
    let quoted := rest.takeWhile (· != '\'')
    (parseWithin budget ((rest.dropWhile (· != '\'')).drop 1)).map (quoted.map .literal ++ ·)
  | budget + 1, c :: rest =>
    if c.isAlpha then
      match piece? c ((rest.takeWhile (· == c)).length + 1) with
      | some piece => (parseWithin budget (rest.dropWhile (· == c))).map (piece :: ·)
      | none => .error c
    else (parseWithin budget rest).map (.literal c :: ·)

/-- The pattern that a text writes, or its first letter that means nothing. -/
def parse (text : List Char) : Except Char Pattern := parseWithin text.length text

end Pattern

/-- A number, padded to two digits or as it is. -/
def twoDigits (pad : Bool) (n : Nat) : List Char := if pad then padded 2 n else Decimal.natDigits n

/-- A name, or its first three letters. -/
def nameText (short : Bool) (name : String) : List Char :=
  if short then name.toList.take 3 else name.toList

/-- What a piece shows of a moment in a zone. -/
def Piece.text (moment : Local) (offset : Int) : Piece → List Char
  | .literal c => [c]
  | .year => yearText moment.date.year
  | .yearOfCentury => padded 2 (moment.date.year.emod 100).toNat
  | .month pad => twoDigits pad moment.date.month
  | .monthName short => nameText short (monthNames.getD (moment.date.month - 1) "")
  | .day pad => twoDigits pad moment.date.day
  | .dayOfYear => padded 3 moment.date.ordinal
  | .hour pad => twoDigits pad moment.hour
  | .hourOfHalf pad =>
    twoDigits pad (if moment.hour % 12 = 0 then 12 else moment.hour % 12)
  | .minute pad => twoDigits pad moment.minute
  | .second pad => twoDigits pad moment.second
  | .fraction places => padded 3 moment.millisecond ++ List.replicate (places - 3) '0'
  | .halfDay => if moment.hour < 12 then ['A', 'M'] else ['P', 'M']
  | .weekdayName short => nameText short (weekdayNames.getD moment.date.weekday "")
  | .offset colon => offsetText colon offset
  | .zoneName => offsetText true offset

/-- What has been read of a date and a time. -/
structure Reading where
  year : Option Int := none
  yearOfCentury : Option Nat := none
  month : Option Nat := none
  day : Option Nat := none
  dayOfYear : Option Nat := none
  weekday : Option Nat := none
  /-- Whether the hour is in the second half of the day. -/
  afternoon : Option Bool := none
  hourOfHalf : Option Nat := none
  minute : Option Nat := none
  second : Option Nat := none
  nanosecond : Option Nat := none
  offset : Option Int := none

/-- Notes a value for a part: a part that is read twice has to read the same. -/
def note {α : Type} [DecidableEq α] (known : Option α) (value : α) : Option (Option α) :=
  match known with
  | none => some (some value)
  | some old => if old = value then some known else none

/-- Takes a number of at most `most` digits behind any blanks. -/
def number? (most : Nat) (text : List Char) : Option (Nat × List Char) :=
  digits? 1 most (Text.trimStart text)

/-- Takes a number of at most `most` digits that lies between two bounds. -/
def bounded? (most least greatest : Nat) (text : List Char) : Option (Nat × List Char) := do
  let (n, rest) ← number? most text
  if least ≤ n ∧ n ≤ greatest then some (n, rest) else none

/-- The greatest size of a year in a text. -/
def maxYear : Int := 2147483647

/-- Takes a year: four digits at most, or with a sign as many as there are. -/
def year? (text : List Char) : Option (Int × List Char) := do
  let text := Text.trimStart text
  let (year, rest) ← match text with
    | '-' :: rest => (digits? 1 rest.length rest).map fun (n, rest) => (-(n : Int), rest)
    | '+' :: rest => (digits? 1 rest.length rest).map fun (n, rest) => ((n : Int), rest)
    | _ => (digits? 1 4 text).map fun (n, rest) => ((n : Int), rest)
  if -maxYear - 1 ≤ year ∧ year ≤ maxYear then some (year, rest) else none

/-- Drops a word that may differ in the case of its letters. -/
def dropWord? (word text : List Char) : Option (List Char) :=
  let front := text.take word.length
  if front.length = word.length ∧ front.map Char.toLower = word.map Char.toLower then
    some (text.drop word.length)
  else none

/-- Takes one of the names by its first three letters, and the rest of the name where `short` does
not ask for three letters and the rest is there. -/
def nameOf? (short : Bool) (names : List String) (text : List Char) : Option (Nat × List Char) :=
  names.zipIdx.findSome? fun (name, place) => do
    let rest ← dropWord? (name.toList.take 3) text
    if short then some (place, rest)
    else some (place, (dropWord? (name.toList.drop 3) rest).getD rest)

/-- Reads one piece from a text. -/
def Piece.read (reading : Reading) (text : List Char) : Piece → Option (Reading × List Char)
  | .literal c => do
    if Text.isBlank c then some (reading, Text.trimStart text)
    else some (reading, ← char? c text)
  | .year => do
    let (n, rest) ← year? text
    some ({ reading with year := ← note reading.year n }, rest)
  | .yearOfCentury => do
    let (n, rest) ← number? 2 text
    some ({ reading with yearOfCentury := ← note reading.yearOfCentury n }, rest)
  | .month _ => do
    let (n, rest) ← bounded? 2 1 12 text
    some ({ reading with month := ← note reading.month n }, rest)
  | .monthName short => do
    let (n, rest) ← nameOf? short monthNames text
    some ({ reading with month := ← note reading.month (n + 1) }, rest)
  | .day _ => do
    let (n, rest) ← bounded? 2 1 31 text
    some ({ reading with day := ← note reading.day n }, rest)
  | .dayOfYear => do
    let (n, rest) ← bounded? 3 1 366 text
    some ({ reading with dayOfYear := ← note reading.dayOfYear n }, rest)
  | .hour _ => do
    let (n, rest) ← bounded? 2 0 23 text
    let afternoon ← note reading.afternoon (decide (12 ≤ n))
    let hourOfHalf ← note reading.hourOfHalf (n % 12)
    some ({ reading with afternoon, hourOfHalf }, rest)
  | .hourOfHalf _ => do
    let (n, rest) ← bounded? 2 1 12 text
    some ({ reading with hourOfHalf := ← note reading.hourOfHalf (n % 12) }, rest)
  | .minute _ => do
    let (n, rest) ← bounded? 2 0 59 text
    some ({ reading with minute := ← note reading.minute n }, rest)
  | .second _ => do
    let (n, rest) ← bounded? 2 0 60 text
    some ({ reading with second := ← note reading.second n }, rest)
  | .fraction places => do
    let (n, rest) ← digits? places places text
    let nanosecond ← note reading.nanosecond (n * Nat.pow 10 (9 - places))
    some ({ reading with nanosecond }, rest)
  | .halfDay => do
    match dropWord? ['a', 'm'] text with
    | some rest => some ({ reading with afternoon := ← note reading.afternoon false }, rest)
    | none =>
      let rest ← dropWord? ['p', 'm'] text
      some ({ reading with afternoon := ← note reading.afternoon true }, rest)
  | .weekdayName short => do
    let (n, rest) ← nameOf? short weekdayNames text
    some ({ reading with weekday := ← note reading.weekday n }, rest)
  | .offset _ => do
    let (n, rest) ← offset? (fun rest => some (dropColons rest)) (Text.trimStart text)
    some ({ reading with offset := ← note reading.offset n }, rest)
  | .zoneName => some (reading, text.dropWhile fun c => !Text.isBlank c)

namespace Reading

/-- The year: as read, and in accord with the year of the century; of the latter alone the one from
1970 to 2069. -/
def fullYear? (reading : Reading) : Option Int :=
  match reading.year, reading.yearOfCentury with
  | some year, none => some year
  | some year, some part => if 0 ≤ year ∧ year % 100 = part then some year else none
  | none, some part => some (if part < 70 then 2000 + part else 1900 + part)
  | none, none => none

/-- Whether a date shows everything that was read of it. -/
def agrees (reading : Reading) (date : Date) : Bool :=
  reading.year.all (· == date.year) &&
    reading.yearOfCentury.all (fun part => 0 ≤ date.year && date.year % 100 == part) &&
    reading.month.all (· == date.month) && reading.day.all (· == date.day) &&
    reading.dayOfYear.all (· == date.ordinal) && reading.weekday.all (· == date.weekday)

/-- The date: a year with a month and a day, or with a day of the year. -/
def date? (reading : Reading) : Option Date := do
  let year ← reading.fullYear?
  let date ← match reading.month, reading.day with
    | some month, some day =>
      let date : Date := { year, month, day }
      if date.isValid then some date else none
    | _, _ => Date.ofOrdinal? year (← reading.dayOfYear)
  if reading.agrees date then some date else none

/-- The hour, minute, second and millisecond: the seconds may be missing, and then the fraction. -/
def time? (reading : Reading) : Option (Nat × Nat × Nat × Nat) := do
  let hour := (if ← reading.afternoon then 12 else 0) + (← reading.hourOfHalf)
  let minute ← reading.minute
  match reading.second, reading.nanosecond with
  | some second, nanosecond => some (hour, minute, second, nanosecond.getD 0 / 1000000)
  | none, none => some (hour, minute, 0, 0)
  | none, some _ => none

end Reading

namespace Pattern

/-- Writes a moment as it is seen some seconds east. -/
def format (pattern : Pattern) (millis offset : Int) : String :=
  let moment := Local.ofMillis millis offset
  String.ofList (pattern.flatMap (Piece.text moment offset))

/-- Reads the pieces of a pattern one after another; nothing may be left. -/
def pieces? : Pattern → Reading → List Char → Option Reading
  | [], reading, text => if text.isEmpty then some reading else none
  | piece :: rest, reading, text => do
    let (reading, text) ← piece.read reading text
    pieces? rest reading text

/-- Why a text is no moment. -/
inductive Unread where
  /-- The text does not follow the pattern, or the pattern leaves the date open. -/
  | mismatch
  /-- No moment within reach has this date and time in the zone. -/
  | outOfReach
deriving DecidableEq

/-- The moment that a text writes, seen some seconds east; without a time it is midnight. -/
def read (pattern : Pattern) (text : List Char) (offset : Int) : Except Unread Int :=
  match (pieces? pattern {} text).bind fun reading =>
      reading.date?.map fun date => (date, reading.time?.getD (0, 0, 0, 0)) with
  | none => .error .mismatch
  | some (date, hour, minute, second, millisecond) =>
    let millis := millisOf date hour minute second millisecond offset
    if firstMillis ≤ millis ∧ millis ≤ lastMillis then .ok millis else .error .outOfReach

end Pattern

end FieldResolver.Calendar
