/-
**Reading JSON text.**

The reader takes one value, with blanks around it, and nothing after it. At most 127 containers may
lie inside one another. A whole number that fits neither 64-bit range is read as a double, as is
`-0`. `readWritten` keeps repeated keys as they are written, and `read` merges them.

An error carries its cause and where it was noticed; `ReadError.message` words both.
-/

import FieldResolver.Json.Basic
import FieldResolver.Decimal.Reading

namespace FieldResolver.Json

/-- What the text of a value ended inside of. -/
inductive Construct where
  | value
  | array
  | object
  | string
deriving DecidableEq

/-- Why a text is not JSON. -/
inductive ReadError.Cause where
  | endOfText (inside : Construct)
  | expectedValue
  | expectedWord
  | expectedColon
  | arraySeparator
  | objectSeparator
  | trailingComma
  | keyNotString
  | badNumber
  | numberRange
  | badEscape
  | endOfEscape
  | loneSurrogate
  | controlCharacter
  | tooDeep
  | trailingCharacters
deriving DecidableEq

/-- A cause, and how many characters follow the one at which it was noticed. -/
structure ReadError where
  cause : ReadError.Cause
  remaining : Nat
deriving DecidableEq

namespace ReadError

/-- The wording of a cause. -/
def Cause.message : Cause → String
  | .endOfText .value => "EOF while parsing a value"
  | .endOfText .array => "EOF while parsing a list"
  | .endOfText .object => "EOF while parsing an object"
  | .endOfText .string => "EOF while parsing a string"
  | .expectedValue => "expected value"
  | .expectedWord => "expected ident"
  | .expectedColon => "expected `:`"
  | .arraySeparator => "expected `,` or `]`"
  | .objectSeparator => "expected `,` or `\x7d`"
  | .trailingComma => "trailing comma"
  | .keyNotString => "key must be a string"
  | .badNumber => "invalid number"
  | .numberRange => "number out of range"
  | .badEscape => "invalid escape"
  | .endOfEscape => "unexpected end of hex escape"
  | .loneSurrogate => "lone leading surrogate in hex escape"
  | .controlCharacter => "control character (\\u0000-\\u001F) found while parsing a string"
  | .tooDeep => "recursion limit exceeded"
  | .trailingCharacters => "trailing characters"

/-- The wording of an error: lines count from one, columns in bytes. -/
def message (error : ReadError) (text : List Char) : String :=
  let before := text.take (text.length - error.remaining)
  let lastLine := (before.reverse.takeWhile (· ≠ '\n')).reverse
  let line := before.count '\n' + 1
  let column := (String.ofList lastLine).utf8ByteSize
  error.cause.message ++ " at line " ++ toString line ++ " column " ++ toString column

end ReadError

/-- A reader of a part of a text: what it read, and the text that follows. -/
abbrev Reader (α : Type) := List Char → Except ReadError (α × List Char)

/-- Fails after the characters in front of `rest`. -/
def failBefore {α : Type} (cause : ReadError.Cause) (rest : List Char) : Except ReadError α :=
  .error ⟨cause, rest.length⟩

/-- Fails at the first character of `rest`. -/
def failAt {α : Type} (cause : ReadError.Cause) (rest : List Char) : Except ReadError α :=
  failBefore cause (rest.drop 1)

/-- The four characters that may stand between the parts of a JSON text. -/
def isBlank (c : Char) : Bool := c = ' ' || c = '\n' || c = '\t' || c = '\r'

/-- Drops blanks. -/
def skipBlanks (text : List Char) : List Char := text.dropWhile isBlank

/-- Expects the rest of a word. -/
def readWord (value : Json) : List Char → Reader Json
  | [], text => .ok (value, text)
  | _ :: _, [] => failBefore (.endOfText .value) []
  | expected :: more, c :: rest =>
    if c = expected then readWord value more rest else failBefore .expectedWord rest

section Numbers

open Decimal

/-- Reads digits as long as the significand stays below `2 ^ 64`: the significand, the number of
digits taken and what follows. -/
def takeDigits (significand taken : Nat) : List Char → Nat × Nat × List Char
  | [] => (significand, taken, [])
  | c :: rest =>
    if isDigit c && decide (10 * significand + digitValue c < 0x10000000000000000) then
      takeDigits (10 * significand + digitValue c) (taken + 1) rest
    else (significand, taken, c :: rest)

/-- Whether a digit comes next. -/
def digitNext : List Char → Bool
  | c :: _ => isDigit c
  | [] => false

/-- The double of a significand and an exponent, refused beyond the greatest double. -/
def readScaled (negative : Bool) (significand : Nat) (exponent : Int) (rest : List Char) :
    Except ReadError (Json × List Char) :=
  match scaled? significand exponent with
  | some x => .ok (.number (.float (if negative then -x else x)), rest)
  | none => failBefore .numberRange rest

/-- The part of a number behind its exponent letter. -/
def readExponent (negative : Bool) (significand : Nat) (exponent : Int) : Reader Json := fun text =>
  let (down, digits) := splitSign text
  match digits with
  | [] => failBefore (.endOfText .value) []
  | c :: rest =>
    if isDigit c then
      let size : Int := natOfDigits (rest.takeWhile isDigit) (digitValue c)
      readScaled negative significand (if down then exponent - size else exponent + size)
        (rest.dropWhile isDigit)
    else failBefore .badNumber rest

/-- The end of a number with a fraction: an exponent or nothing. -/
def readAfterFraction (negative : Bool) (significand : Nat) (exponent : Int) : Reader Json
  | 'e' :: rest => readExponent negative significand exponent rest
  | 'E' :: rest => readExponent negative significand exponent rest
  | rest => readScaled negative significand exponent rest

/-- The part of a number behind its point, with at least one digit; digits that no longer fit the
significand are dropped. -/
def readFraction (negative : Bool) (significand : Nat) (exponent : Int) : Reader Json := fun text =>
  let (significand, taken, rest) := takeDigits significand 0 text
  if digitNext rest || taken ≠ 0 then
    readAfterFraction negative significand (exponent - taken) (rest.dropWhile isDigit)
  else match rest with
    | [] => failBefore (.endOfText .value) []
    | rest => failAt .badNumber rest

/-- The part of a number behind its whole part, of which `dropped` digits did not fit the
significand. -/
def readAfterWhole (negative : Bool) (significand dropped : Nat) : Reader Json
  | '.' :: rest => readFraction negative significand dropped rest
  | 'e' :: rest => readExponent negative significand dropped rest
  | 'E' :: rest => readExponent negative significand dropped rest
  | rest =>
    if dropped ≠ 0 then readScaled negative significand dropped rest
    else if !negative then .ok (int significand, rest)
    else if significand = 0 ∨ 0x8000000000000000 < significand then
      .ok (.number (.float (-Float.ofNat significand)), rest)
    else .ok (int (-(significand : Int)), rest)

/-- A number behind its sign. -/
def readNumber (negative : Bool) : Reader Json
  | [] => failBefore (.endOfText .value) []
  | '0' :: rest =>
    if digitNext rest then failAt .badNumber rest else readAfterWhole negative 0 0 rest
  | c :: rest =>
    if isDigit c then
      let (significand, _, rest) := takeDigits (digitValue c) 0 rest
      readAfterWhole negative significand (rest.takeWhile isDigit).length (rest.dropWhile isDigit)
    else failBefore .badNumber rest

end Numbers

section Strings

/-- The value of a hexadecimal digit. -/
def hexValue? (c : Char) : Option Nat :=
  if '0' ≤ c ∧ c ≤ '9' then some (c.toNat - '0'.toNat)
  else if 'a' ≤ c ∧ c ≤ 'f' then some (c.toNat - 'a'.toNat + 10)
  else if 'A' ≤ c ∧ c ≤ 'F' then some (c.toNat - 'A'.toNat + 10)
  else none

/-- Four hexadecimal digits. -/
def readUnit : Reader Nat
  | a :: b :: c :: d :: rest =>
    match hexValue? a, hexValue? b, hexValue? c, hexValue? d with
    | some a, some b, some c, some d => .ok (((a * 16 + b) * 16 + c) * 16 + d, rest)
    | _, _, _, _ => failBefore .badEscape rest
  | _ => failBefore (.endOfText .string) []

/-- The character behind a backslash and a `u`: one unit, or two that make up a pair. -/
def readUnicodeEscape : Reader Char := fun text => do
  let (unit, rest) ← readUnit text
  if 0xDC00 ≤ unit ∧ unit ≤ 0xDFFF then failBefore .loneSurrogate rest
  else if 0xD800 ≤ unit ∧ unit ≤ 0xDBFF then
    match rest with
    | '\\' :: 'u' :: more =>
      let (low, more) ← readUnit more
      if 0xDC00 ≤ low ∧ low ≤ 0xDFFF then
        .ok (Char.ofNat (0x10000 + (unit - 0xD800) * 0x400 + (low - 0xDC00)), more)
      else failBefore .loneSurrogate more
    | '\\' :: more => failBefore .endOfEscape (more.drop 1)
    | [] => failBefore (.endOfText .string) []
    | _ :: more => failBefore .endOfEscape more
  else .ok (Char.ofNat unit, rest)

/-- The character that an escape behind a backslash stands for. -/
def readEscape : Reader Char
  | [] => failBefore (.endOfText .string) []
  | c :: rest =>
    match c with
    | '"' => .ok ('"', rest)
    | '\\' => .ok ('\\', rest)
    | '/' => .ok ('/', rest)
    | 'b' => .ok (Char.ofNat 8, rest)
    | 'f' => .ok (Char.ofNat 12, rest)
    | 'n' => .ok ('\n', rest)
    | 'r' => .ok ('\r', rest)
    | 't' => .ok ('\t', rest)
    | 'u' => readUnicodeEscape rest
    | _ => failBefore .badEscape rest

/-- A string behind its opening quote; the budget bounds its characters. -/
def readString : Nat → List Char → Reader (List Char)
  | _, _, [] => failBefore (.endOfText .string) []
  | 0, _, rest => failBefore (.endOfText .string) rest
  | budget + 1, read, c :: rest =>
    if c = '"' then .ok (read.reverse, rest)
    else if c = '\\' then do
      let (escaped, rest) ← readEscape rest
      readString budget (escaped :: read) rest
    else if c.toNat < 32 then failBefore .controlCharacter rest
    else readString budget (c :: read) rest

/-- A string behind its opening quote. -/
def readText : Reader String := fun text => do
  let (read, rest) ← readString (text.length + 1) [] text
  .ok (String.ofList read, rest)

end Strings

/-- The items of an array behind one of them; the budget bounds their number. -/
def readItems (item : Reader Json) : Nat → List Json → Reader (List Json)
  | 0, _, text => failBefore (.endOfText .array) text
  | budget + 1, read, text =>
    match skipBlanks text with
    | ']' :: rest => .ok (read.reverse, rest)
    | ',' :: rest =>
      match skipBlanks rest with
      | [] => failBefore (.endOfText .value) []
      | ']' :: more => failBefore .trailingComma more
      | next => do
        let (value, rest) ← item next
        readItems item budget (value :: read) rest
    | [] => failBefore (.endOfText .array) []
    | rest => failAt .arraySeparator rest

/-- An array behind its opening bracket. -/
def readArray (item : Reader Json) : Reader Json := fun text =>
  match skipBlanks text with
  | [] => failBefore (.endOfText .array) []
  | ']' :: rest => .ok (.array [], rest)
  | first => do
    let (value, rest) ← item first
    let (values, rest) ← readItems item (rest.length + 1) [value] rest
    .ok (.array values, rest)

/-- A field behind the opening quote of its key. -/
def readField (item : Reader Json) : Reader (String × Json) := fun text => do
  let (key, rest) ← readText text
  match skipBlanks rest with
  | ':' :: rest =>
    let (value, rest) ← item rest
    .ok ((key, value), rest)
  | [] => failBefore (.endOfText .object) []
  | rest => failAt .expectedColon rest

/-- The fields of an object behind some, of which the last comes first; the budget bounds their
number. -/
def readFields (item : Reader Json) : Nat → List (String × Json) → Reader (List (String × Json))
  | 0, _, text => failBefore (.endOfText .object) text
  | budget + 1, read, text =>
    match skipBlanks text with
    | '\x7d' :: rest => .ok (read.reverse, rest)
    | ',' :: rest =>
      match skipBlanks rest with
      | [] => failBefore (.endOfText .value) []
      | '"' :: rest => do
        let (field, rest) ← readField item rest
        readFields item budget (field :: read) rest
      | '\x7d' :: more => failBefore .trailingComma more
      | rest => failAt .keyNotString rest
    | [] => failBefore (.endOfText .object) []
    | rest => failAt .objectSeparator rest

/-- An object behind its opening brace. -/
def readObject (item : Reader Json) : Reader Json := fun text =>
  match skipBlanks text with
  | [] => failBefore (.endOfText .object) []
  | '\x7d' :: rest => .ok (.object [], rest)
  | '"' :: rest => do
    let (first, rest) ← readField item rest
    let (fields, rest) ← readFields item (rest.length + 1) [first] rest
    .ok (.object fields, rest)
  | rest => failAt .keyNotString rest

/-- A value in which at most `nesting` containers lie inside one another. -/
def readValue (nesting : Nat) : Reader Json := fun text =>
  match skipBlanks text with
  | [] => failBefore (.endOfText .value) []
  | c :: rest =>
    match c with
    | 'n' => readWord .null ['u', 'l', 'l'] rest
    | 't' => readWord (.bool true) ['r', 'u', 'e'] rest
    | 'f' => readWord (.bool false) ['a', 'l', 's', 'e'] rest
    | '"' => do
      let (read, rest) ← readText rest
      .ok (.string read, rest)
    | '-' => readNumber true rest
    | '[' => match nesting with
      | 0 => failBefore .tooDeep rest
      | inner + 1 => readArray (readValue inner) rest
    | '\x7b' => match nesting with
      | 0 => failBefore .tooDeep rest
      | inner + 1 => readObject (readValue inner) rest
    | _ =>
      if Decimal.isDigit c then readNumber false (c :: rest) else failBefore .expectedValue rest

/-- How many containers may lie inside one another. -/
def maxNesting : Nat := 127

/-- Reads a whole text as one value and keeps repeated keys. -/
def readWritten (text : List Char) : Except ReadError Json := do
  let (value, rest) ← readValue maxNesting text
  match skipBlanks rest with
  | [] => .ok value
  | _ :: more => failBefore .trailingCharacters more

/-- Reads a whole text as one value. -/
def read (text : List Char) : Except ReadError Json := (readWritten text).map merged

/-- Reads a whole text as one value; the error is its wording. -/
def parse (text : String) : Except String Json :=
  (read text.toList).mapError fun error => error.message text.toList

/-- The value that a whole text stands for. -/
def parse? (text : String) : Option Json := (read text.toList).toOption

/-- What a whole text writes, with repeated keys; the error is its wording. -/
def parseWritten (text : String) : Except String Json :=
  (readWritten text.toList).mapError fun error => error.message text.toList

end FieldResolver.Json
