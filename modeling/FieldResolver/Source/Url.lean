/-
**Web addresses.**

An address is read as browsers read it: white space around it and line breaks inside it are dropped,
the scheme and the host are in small letters, the default port is left out, `.` and `..` are
resolved and what must not stand in a path or a query is written with percent signs. Addresses of
other schemes than `http` and `https` are kept as they are, and hosts outside ASCII keep their
letters.

* `resolveSegments_dotFree`: a resolved path has no `.` and no `..`.
-/

import FieldResolver.Decimal.Reading
import FieldResolver.Text.Encoding

namespace FieldResolver

/-- The address of a web resource. -/
structure WebAddress where
  secure : Bool
  host : List Char
  /-- The port if it is not the scheme's own. -/
  port : Option Nat
  /-- The segments of the path, without the slash in front of each. -/
  segments : List (List Char)
  query : Option (List Char)
deriving DecidableEq

/-- An address. -/
inductive Url where
  | web (address : WebAddress)
  /-- An address of another scheme. -/
  | other (text : List Char)
deriving DecidableEq

namespace Url

/-- Whether a character is a control character or a blank. -/
def isControlOrBlank (c : Char) : Bool := c.toNat ≤ 32

/-- Drops what does not count around and inside an address. -/
def cleaned (text : List Char) : List Char :=
  let front := text.dropWhile isControlOrBlank
  let both := (front.reverse.dropWhile isControlOrBlank).reverse
  both.filter fun c => c != '\t' && c != '\n' && c != '\r'

/-- Whether a character may stand in a scheme behind its first. -/
def isSchemeChar (c : Char) : Bool := c.isAlphanum || c == '+' || c == '-' || c == '.'

/-- The scheme in small letters and what follows its colon. -/
def scheme? (text : List Char) : Option (List Char × List Char) :=
  match text.span isSchemeChar with
  | (first :: more, ':' :: rest) =>
    if first.isAlpha then some ((first :: more).map Char.toLower, rest) else none
  | _ => none

/-- Whether a character ends the part of an address that names the host. -/
def endsAuthority (c : Char) : Bool := c == '/' || c == '\\' || c == '?' || c == '#'

/-- What stands behind the last of a character, or all where there is none. -/
def behindLast (mark : Char) (text : List Char) : List Char :=
  (text.reverse.takeWhile fun c => c != mark).reverse

/-- Splits a host from what follows its first colon outside of brackets. -/
def splitPort (inside : Bool) : List Char → List Char × Option (List Char)
  | [] => ([], none)
  | c :: rest =>
    if c = ':' && !inside then ([], some rest)
    else
      let inside := if c = '[' then true else if c = ']' then false else inside
      let (host, port) := splitPort inside rest
      (c :: host, port)

/-- Whether a character must not stand in the name of a host. -/
def isForbiddenInHost (c : Char) : Bool :=
  c.toNat ≤ 32 || c.toNat == 127 ||
    ['#', '/', ':', '<', '>', '?', '@', '[', '\\', ']', '^', '|', '%'].contains c

/-- Splits a text at every occurrence of a character. -/
def splitAt (mark : Char) : List Char → List (List Char)
  | [] => [[]]
  | c :: rest =>
    if c = mark then [] :: splitAt mark rest
    else
      match splitAt mark rest with
      | [] => [[c]]
      | part :: parts => (c :: part) :: parts

/-- The value of a digit in a base. -/
def digit? (base : Nat) (c : Char) : Option Nat :=
  match Text.hexValue? c.toNat.toUInt8 with
  | some value => if c.toNat < 128 && value.toNat < base then some value.toNat else none
  | none => none

/-- A natural number in a base. -/
def natIn? (base : Nat) (text : List Char) : Option Nat :=
  (text.mapM (digit? base)).map fun digits => digits.foldl (fun n digit => n * base + digit) 0

/-- A part of a numeric host: hexadecimal behind `0x`, octal behind `0`, else decimal. -/
def hostNumber? : List Char → Option Nat
  | [] => none
  | '0' :: 'x' :: digits | '0' :: 'X' :: digits => natIn? 16 digits
  | '0' :: digit :: digits => natIn? 8 (digit :: digits)
  | digits => natIn? 10 digits

/-- Whether a host ends in a number, so that it must be a numeric one. -/
def endsInNumber (parts : List (List Char)) : Bool :=
  match parts.getLast? with
  | none => false
  | some last => (!last.isEmpty && last.all Char.isDigit) || (hostNumber? last).isSome

/-- A numeric host as a number: every part but the last one is a byte. -/
def numericHost? (parts : List (List Char)) : Option Nat := do
  if 4 < parts.length then none
  let numbers ← parts.mapM hostNumber?
  let front := numbers.dropLast
  let last := numbers.getLastD 0
  if front.any (255 < ·) || Nat.pow 256 (4 - front.length) ≤ last then none
  some (front.zipIdx.foldl (fun sum (byte, place) => sum + byte * Nat.pow 256 (3 - place)) last)

/-- The four bytes of a numeric host with points between them. -/
def dotted (n : Nat) : List Char :=
  let bytes := [3, 2, 1, 0].map fun place => n / Nat.pow 256 place % 256
  (String.intercalate "." (bytes.map toString)).toList

/-- How many groups a part of a host in brackets has, if it is well formed. -/
def groupCount? (text : List Char) : Option Nat :=
  if text.isEmpty then some 0
  else
    let groups := splitAt ':' text
    let isGroup := fun (group : List Char) =>
      !group.isEmpty && group.length ≤ 4 && (natIn? 16 group).isSome
    let isDotted := fun (group : List Char) =>
      let parts := splitAt '.' group
      parts.length == 4 && parts.all fun part => (natIn? 10 part).any (· < 256)
    if groups.all isGroup then some groups.length
    else if groups.dropLast.all isGroup && isDotted (groups.getLastD []) then
      some (groups.length + 1)
    else none

/-- Splits a text at the first two colons in a row. -/
def splitDoubleColon : List Char → Option (List Char × List Char)
  | ':' :: ':' :: rest => some ([], rest)
  | c :: rest => (splitDoubleColon rest).map fun (front, behind) => (c :: front, behind)
  | [] => none

/-- Whether a text may stand in brackets as a host: eight groups, or fewer around two colons. -/
def isBracketed (text : List Char) : Bool :=
  match splitDoubleColon text with
  | none => groupCount? text == some 8
  | some (front, behind) =>
    match groupCount? front, groupCount? behind with
    | some a, some b => a + b ≤ 7
    | _, _ => false

/-- The host of an address. -/
def host? (text : List Char) : Option (List Char) :=
  match text with
  | [] => none
  | '[' :: rest =>
    if rest.getLast? = some ']' && isBracketed rest.dropLast then
      some (text.map Char.toLower)
    else none
  | _ => do
    let decoded ← Text.ofBytes? (Text.percentDecode (Text.bytes (String.ofList text)))
    let name := decoded.toList.map Char.toLower
    if name.any isForbiddenInHost then none
    let parts := splitAt '.' name
    let parts := if 1 < parts.length && parts.getLast? == some [] then parts.dropLast else parts
    if endsInNumber parts then (numericHost? parts).map dotted else some name

/-- The port of an address whose scheme has a port of its own. -/
def port? (own : Nat) : Option (List Char) → Option (Option Nat)
  | none | some [] => some none
  | some digits =>
    match natIn? 10 digits with
    | some n => if 65535 < n then none else some (if n = own then none else some n)
    | none => none

/-- Writes the characters of a set and those outside ASCII with percent signs. -/
def encode (inSet : Char → Bool) (text : List Char) : List Char :=
  text.flatMap fun c =>
    if c.toNat < 32 || 126 < c.toNat || inSet c then
      (Text.bytes (String.singleton c)).flatMap Text.percent
    else [c]

/-- Whether a path has to write a character with a percent sign. -/
def isEncodedInPath (c : Char) : Bool :=
  [' ', '"', '#', '<', '>', '?', '\x60', '\x7b', '\x7d'].contains c

/-- Whether a query has to write a character with a percent sign. -/
def isEncodedInQuery (c : Char) : Bool := [' ', '"', '#', '<', '>', '\''].contains c

/-- Whether a segment stands for its directory. -/
def isHere (segment : List Char) : Bool :=
  segment == ['.'] || segment.map Char.toLower == ['%', '2', 'e']

/-- Whether a segment stands for the directory above. -/
def isAbove (segment : List Char) : Bool :=
  let small := segment.map Char.toLower
  [['.', '.'], ['.', '%', '2', 'e'], ['%', '2', 'e', '.'],
    ['%', '2', 'e', '%', '2', 'e']].contains small

/-- Resolves segments behind those that are resolved already, the last first. -/
def resolveBehind (resolved : List (List Char)) : List (List Char) → List (List Char)
  | [] => resolved.reverse
  | [last] =>
    if isAbove last then ([] :: resolved.tail).reverse
    else if isHere last then ([] :: resolved).reverse
    else (last :: resolved).reverse
  | segment :: rest =>
    if isAbove segment then resolveBehind resolved.tail rest
    else if isHere segment then resolveBehind resolved rest
    else resolveBehind (segment :: resolved) rest

/-- Segments without those that stand for a directory. -/
def resolveSegments (segments : List (List Char)) : List (List Char) := resolveBehind [] segments

/-- The segments of a path. -/
def segmentsOf (path : List Char) : List (List Char) :=
  let path := path.map fun c => if c = '\\' then '/' else c
  let path := match path with
    | '/' :: rest => rest
    | _ => path
  (resolveSegments (splitAt '/' path)).map (encode isEncodedInPath)

/-- Reads an address, if it is one. -/
def parse? (text : String) : Option Url := do
  let text := cleaned text.toList
  let (scheme, rest) ← scheme? text
  if scheme != "http".toList && scheme != "https".toList then return .other text
  let secure := scheme == "https".toList
  let rest := rest.dropWhile fun c => c == '/' || c == '\\'
  let (authority, rest) := rest.span fun c => !endsAuthority c
  let (hostText, portText) := splitPort false (behindLast '@' authority)
  let host ← host? hostText
  let port ← port? (if secure then 443 else 80) portText
  let rest := rest.takeWhile (· != '#')
  let (path, query) := rest.span (· != '?')
  return .web
    { secure, host, port
      segments := segmentsOf path
      query := match query with
        | [] => none
        | _ :: query => some (encode isEncodedInQuery query) }

/-- Adds pairs to the query of an address. -/
def addPairs (address : WebAddress) (pairs : List (String × String)) : WebAddress :=
  let written := pairs.map fun (name, value) => Text.formEncode name ++ "=" ++ Text.formEncode value
  let front := match address.query with
    | none | some [] => []
    | some query => [String.ofList query]
  { address with query := some (String.intercalate "&" (front ++ written)).toList }

end Url

/-- The text of an address. -/
def WebAddress.text (address : WebAddress) : String :=
  let scheme := if address.secure then "https://" else "http://"
  let port := match address.port with
    | none => ""
    | some port => s!":{port}"
  let path := address.segments.flatMap fun segment => '/' :: segment
  let query := match address.query with
    | none => []
    | some query => '?' :: query
  scheme ++ String.ofList address.host ++ port ++ String.ofList (path ++ query)

namespace Url

/-- Resolving adds no segment that stands for a directory. -/
theorem resolveBehind_dotFree {resolved segments : List (List Char)}
    (dotFree : ∀ segment ∈ resolved, isHere segment = false ∧ isAbove segment = false) :
    ∀ segment ∈ resolveBehind resolved segments,
      isHere segment = false ∧ isAbove segment = false := by
  have emptyFree : isHere [] = false ∧ isAbove [] = false := by decide
  have tailFree : ∀ segment ∈ resolved.tail, isHere segment = false ∧ isAbove segment = false :=
    fun segment inside => dotFree segment (List.mem_of_mem_tail inside)
  fun_induction resolveBehind resolved segments with
  | case1 resolved => simpa using dotFree
  | case2 resolved last above =>
    intro segment inside
    simp only [List.mem_reverse, List.mem_cons] at inside
    rcases inside with rfl | inside
    · exact emptyFree
    · exact tailFree segment inside
  | case3 resolved last notAbove here =>
    intro segment inside
    simp only [List.mem_reverse, List.mem_cons] at inside
    rcases inside with rfl | inside
    · exact emptyFree
    · exact dotFree segment inside
  | case4 resolved last notAbove notHere =>
    intro segment inside
    simp only [List.mem_reverse, List.mem_cons] at inside
    rcases inside with rfl | inside
    · exact ⟨by simpa using notHere, by simpa using notAbove⟩
    · exact dotFree segment inside
  | case5 resolved first rest more above ih =>
    exact ih tailFree fun segment inside => tailFree segment (List.mem_of_mem_tail inside)
  | case6 resolved first rest more notAbove here ih => exact ih dotFree tailFree
  | case7 resolved first rest more notAbove notHere ih =>
    refine ih (fun segment inside => ?_) (by simpa using dotFree)
    rcases List.mem_cons.mp inside with rfl | inside
    · exact ⟨by simpa using notHere, by simpa using notAbove⟩
    · exact dotFree segment inside

/-- A resolved path has no segment that stands for a directory. -/
theorem resolveSegments_dotFree (segments : List (List Char)) :
    ∀ segment ∈ resolveSegments segments, isHere segment = false ∧ isAbove segment = false :=
  resolveBehind_dotFree (by simp)

end Url

end FieldResolver
