/-
**Text written in other text.**

* Form encoding writes the bytes of a text: letters, digits and `*-._` as they are, a blank as a
  plus sign and any other byte as a percent sign with two hexadecimal digits. Decoding takes a
  percent sign that no two hexadecimal digits follow as it is.
* Inside a script's string literal the two quotes, the backslash, the slash and five control
  characters are written with a backslash; other control characters and all beyond U+007F as `\u`
  with four hexadecimal digits in capitals, a character beyond the basic plane as two units.
* Base64 writes three bytes as four characters of the standard alphabet. A shorter last group is
  filled up with `=`. Only what encoding produces is read back: no blanks, no missing filling, and
  no bits left over in the last character.
-/

namespace FieldResolver.Text

/-! ### Forms -/

/-- The bytes of a text in UTF-8. -/
def bytes (text : String) : List UInt8 := text.toUTF8.data.toList

/-- The text of bytes in UTF-8. -/
def ofBytes? (bytes : List UInt8) : Option String := String.fromUTF8? bytes.toByteArray

/-- A hexadecimal digit in capitals. -/
def hexDigit (n : Nat) : Char :=
  if n < 10 then Char.ofNat ('0'.toNat + n) else Char.ofNat ('A'.toNat + (n - 10))

/-- The value of a hexadecimal digit of either case. -/
def hexValue? (byte : UInt8) : Option UInt8 :=
  if 48 ≤ byte ∧ byte ≤ 57 then some (byte - 48)
  else if 65 ≤ byte ∧ byte ≤ 70 then some (byte - 55)
  else if 97 ≤ byte ∧ byte ≤ 102 then some (byte - 87)
  else none

/-- A byte as a percent sign and two hexadecimal digits. -/
def percent (byte : UInt8) : List Char :=
  ['%', hexDigit (byte.toNat / 16), hexDigit (byte.toNat % 16)]

/-- Whether a form writes a byte as it is. -/
def isFormByte (byte : UInt8) : Bool :=
  (48 ≤ byte && byte ≤ 57) || (65 ≤ byte && byte ≤ 90) || (97 ≤ byte && byte ≤ 122) ||
    byte == 42 || byte == 45 || byte == 46 || byte == 95

/-- How a form writes a byte. -/
def formByte (byte : UInt8) : List Char :=
  if isFormByte byte then [Char.ofNat byte.toNat]
  else if byte == 32 then ['+']
  else percent byte

/-- The form encoding of a text. -/
def formEncode (text : String) : String := String.ofList ((bytes text).flatMap formByte)

/-- Replaces percent signs with two hexadecimal digits by the bytes they stand for. -/
def percentDecode : List UInt8 → List UInt8
  | [] => []
  | 37 :: high :: low :: rest =>
    match hexValue? high, hexValue? low with
    | some h, some l => (h * 16 + l) :: percentDecode rest
    | _, _ => 37 :: percentDecode (high :: low :: rest)
  | byte :: rest => byte :: percentDecode rest

/-- The text that a form's text stands for, if its bytes are UTF-8. -/
def formDecode? (text : String) : Option String :=
  ofBytes? (percentDecode ((bytes text).map fun byte => if byte == 43 then 32 else byte))

/-! ### String literals -/

namespace ScriptString

/-- The sixteen-bit units of a character. -/
def units (c : Char) : List Nat :=
  let code := c.toNat
  if code < 0x10000 then [code]
  else [0xD800 + (code - 0x10000) / 0x400, 0xDC00 + (code - 0x10000) % 0x400]

/-- A unit as a backslash, `u` and four hexadecimal digits. -/
def escapeUnit (unit : Nat) : List Char :=
  ['\\', 'u', hexDigit (unit / 4096), hexDigit (unit / 256 % 16), hexDigit (unit / 16 % 16),
    hexDigit (unit % 16)]

/-- How a character is written. -/
def escapeChar (c : Char) : List Char :=
  match c with
  | '"' => ['\\', '"']
  | '\'' => ['\\', '\'']
  | '\\' => ['\\', '\\']
  | '/' => ['\\', '/']
  | '\n' => ['\\', 'n']
  | '\r' => ['\\', 'r']
  | '\t' => ['\\', 't']
  | c =>
    if c.toNat = 8 then ['\\', 'b']
    else if c.toNat = 12 then ['\\', 'f']
    else if c.toNat < 0x20 ∨ 0x7F < c.toNat then (units c).flatMap escapeUnit
    else [c]

/-- How a text is written. -/
def escape (text : List Char) : List Char := text.flatMap escapeChar

end ScriptString

/-! ### Base64 -/

namespace Base64

/-- The character of a number below sixty-four. -/
def letter (n : Nat) : Char :=
  if n < 26 then Char.ofNat ('A'.toNat + n)
  else if n < 52 then Char.ofNat ('a'.toNat + (n - 26))
  else if n < 62 then Char.ofNat ('0'.toNat + (n - 52))
  else if n = 62 then '+'
  else '/'

/-- The number of a character of the alphabet. -/
def value? (c : Char) : Option Nat :=
  if 'A' ≤ c ∧ c ≤ 'Z' then some (c.toNat - 'A'.toNat)
  else if 'a' ≤ c ∧ c ≤ 'z' then some (c.toNat - 'a'.toNat + 26)
  else if '0' ≤ c ∧ c ≤ '9' then some (c.toNat - '0'.toNat + 52)
  else if c = '+' then some 62
  else if c = '/' then some 63
  else none

/-- The characters of bytes. -/
def encodeBytes : List UInt8 → List Char
  | [] => []
  | [a] =>
    let n := a.toNat * 16
    [letter (n / 64), letter (n % 64), '=', '=']
  | [a, b] =>
    let n := (a.toNat * 256 + b.toNat) * 4
    [letter (n / 4096), letter (n / 64 % 64), letter (n % 64), '=']
  | a :: b :: c :: rest =>
    let n := (a.toNat * 256 + b.toNat) * 256 + c.toNat
    letter (n / 262144) :: letter (n / 4096 % 64) :: letter (n / 64 % 64) :: letter (n % 64) ::
      encodeBytes rest

/-- The bytes of characters. -/
def decodeBytes? : List Char → Option (List UInt8)
  | [] => some []
  | [a, b, '=', '='] => do
    let n := (← value? a) * 64 + (← value? b)
    if n % 16 = 0 then some [UInt8.ofNat (n / 16)] else none
  | [a, b, c, '='] => do
    let n := ((← value? a) * 64 + (← value? b)) * 64 + (← value? c)
    if n % 4 = 0 then some [UInt8.ofNat (n / 1024), UInt8.ofNat (n / 4 % 256)] else none
  | a :: b :: c :: d :: rest => do
    let n := (((← value? a) * 64 + (← value? b)) * 64 + (← value? c)) * 64 + (← value? d)
    let rest ← decodeBytes? rest
    some (UInt8.ofNat (n / 65536) :: UInt8.ofNat (n / 256 % 256) :: UInt8.ofNat (n % 256) :: rest)
  | _ => none

/-- The Base64 text of a string's bytes. -/
def encode (text : String) : String := String.ofList (encodeBytes (bytes text))

end Base64

end FieldResolver.Text
