/-
**Sets of characters.**

A set is a sorted array of ranges of code points that neither touch nor overlap. `ofRanges` brings
any ranges into this form; the other operations keep it.
-/

import FieldResolver.Unicode.Category
import FieldResolver.Unicode.Case

namespace FieldResolver.Regex

/-- Sorted ranges of code points that neither touch nor overlap. -/
structure CharSet where
  ranges : Array (Nat × Nat)

namespace CharSet

/-- The greatest code point. -/
def last : Nat := 0x10FFFF

/-- Merges a range into sorted ranges that are kept in reverse. -/
def merge (sofar : List (Nat × Nat)) (range : Nat × Nat) : List (Nat × Nat) :=
  match sofar with
  | [] => [range]
  | (low, high) :: rest =>
    if range.1 ≤ high + 1 then (low, max high range.2) :: rest else range :: (low, high) :: rest

/-- The set of the code points in any of the ranges. -/
def ofRanges (ranges : List (Nat × Nat)) : CharSet :=
  let sorted := ranges.mergeSort fun a b => a.1 < b.1 || (a.1 == b.1 && a.2 ≤ b.2)
  ⟨(sorted.foldl merge []).reverse.toArray⟩

/-- The set of no character. -/
def empty : CharSet := ⟨#[]⟩

/-- The set of one character. -/
def singleton (c : Char) : CharSet := ⟨#[(c.toNat, c.toNat)]⟩

/-- The set of all characters. -/
def all : CharSet := ⟨#[(0, last)]⟩

/-- The ranges between sorted ranges, from a code point on. -/
def gaps (start : Nat) : List (Nat × Nat) → List (Nat × Nat)
  | [] => if start ≤ last then [(start, last)] else []
  | (low, high) :: rest =>
    if start < low then (start, low - 1) :: gaps (high + 1) rest else gaps (high + 1) rest

/-- The characters that are not in a set. -/
def complement (set : CharSet) : CharSet := ⟨(gaps 0 set.ranges.toList).toArray⟩

/-- The characters in either set. -/
def union (a b : CharSet) : CharSet := ofRanges (a.ranges.toList ++ b.ranges.toList)

/-- The characters in both sets. -/
def inter (a b : CharSet) : CharSet := (a.complement.union b.complement).complement

/-- The characters in the first set that are not in the second. -/
def diff (a b : CharSet) : CharSet := a.inter b.complement

/-- The characters in exactly one of two sets. -/
def symmDiff (a b : CharSet) : CharSet := (a.diff b).union (b.diff a)

/-- Whether a character is in a set. -/
def contains (set : CharSet) (c : Char) : Bool := Unicode.inRanges set.ranges c.toNat

/-- Whether a code point is in a set. -/
def containsCode (set : CharSet) (code : Nat) : Bool := Unicode.inRanges set.ranges code

/-- The characters that differ only in case from one in a set. -/
def foldCase (set : CharSet) : CharSet :=
  let pairs := Unicode.foldImages.toList
  let representatives := pairs.filterMap fun (code, image) =>
    if set.containsCode code || set.containsCode image then some image else none
  let added := pairs.flatMap fun (code, image) =>
    if set.containsCode image || representatives.contains image then
      [(code, code), (image, image)]
    else []
  set.union (ofRanges added)

/-- The characters that differ only in the case of an ASCII letter from one in a set. -/
def foldAscii (set : CharSet) : CharSet :=
  let capitals := (set.inter ⟨#[(0x41, 0x5A)]⟩).ranges.toList
  let smalls := (set.inter ⟨#[(0x61, 0x7A)]⟩).ranges.toList
  set.union (ofRanges (capitals.map (fun (a, b) => (a + 0x20, b + 0x20)) ++
    smalls.map (fun (a, b) => (a - 0x20, b - 0x20))))

/-- The characters of some general categories. -/
def ofCategories (wanted : Unicode.Category → Bool) : CharSet :=
  let runs := Unicode.Category.table.toList
  let ends := (runs.drop 1).map (·.1) ++ [last + 1]
  ofRanges ((runs.zip ends).filterMap fun ((first, category), next) =>
    if wanted category then some (first, next - 1) else none)

/-- The decimal digits. -/
def digits : CharSet := ofCategories (· == .decimalNumber)

/-- The white space. -/
def blanks : CharSet :=
  ⟨#[(9, 13), (0x20, 0x20), (0x85, 0x85), (0xA0, 0xA0), (0x1680, 0x1680), (0x2000, 0x200A),
    (0x2028, 0x2029), (0x202F, 0x202F), (0x205F, 0x205F), (0x3000, 0x3000)]⟩

/-- The alphabetic characters. -/
def alphabetic : CharSet :=
  (ofCategories fun category => category.isLetter || category == .letterNumber).union
    ⟨Unicode.otherAlphabetic⟩

/-- The lower case characters. -/
def lowercase : CharSet :=
  (ofCategories (· == .lowercaseLetter)).union ⟨Unicode.otherLowercase⟩

/-- The upper case characters. -/
def uppercase : CharSet :=
  (ofCategories (· == .uppercaseLetter)).union ⟨Unicode.otherUppercase⟩

/-- The characters of words. -/
def wordChars : CharSet :=
  ((ofCategories fun category =>
      category.isMark || category == .decimalNumber || category == .connectorPunctuation).union
    alphabetic).union ⟨#[(0x200C, 0x200D)]⟩

/-- The digits, blanks and word characters among the first 128. -/
def asciiDigits : CharSet := ⟨#[(0x30, 0x39)]⟩
@[inherit_doc asciiDigits] def asciiBlanks : CharSet := ⟨#[(9, 13), (0x20, 0x20)]⟩
@[inherit_doc asciiDigits] def asciiWordChars : CharSet :=
  ⟨#[(0x30, 0x39), (0x41, 0x5A), (0x5F, 0x5F), (0x61, 0x7A)]⟩

/-- The classes that brackets and colons name. -/
def named? : String → Option CharSet
  | "alnum" => some ⟨#[(0x30, 0x39), (0x41, 0x5A), (0x61, 0x7A)]⟩
  | "alpha" => some ⟨#[(0x41, 0x5A), (0x61, 0x7A)]⟩
  | "ascii" => some ⟨#[(0, 0x7F)]⟩
  | "blank" => some ⟨#[(9, 9), (0x20, 0x20)]⟩
  | "cntrl" => some ⟨#[(0, 0x1F), (0x7F, 0x7F)]⟩
  | "digit" => some asciiDigits
  | "graph" => some ⟨#[(0x21, 0x7E)]⟩
  | "lower" => some ⟨#[(0x61, 0x7A)]⟩
  | "print" => some ⟨#[(0x20, 0x7E)]⟩
  | "punct" => some ⟨#[(0x21, 0x2F), (0x3A, 0x40), (0x5B, 0x60), (0x7B, 0x7E)]⟩
  | "space" => some asciiBlanks
  | "upper" => some ⟨#[(0x41, 0x5A)]⟩
  | "word" => some asciiWordChars
  | "xdigit" => some ⟨#[(0x30, 0x39), (0x41, 0x46), (0x61, 0x66)]⟩
  | _ => none

/-- The categories and groups of categories by their long names. -/
def longNames : List (String × List String) :=
  [("letter", ["L"]), ("uppercaseletter", ["Lu"]), ("lowercaseletter", ["Ll"]),
   ("titlecaseletter", ["Lt"]), ("casedletter", ["Lu", "Ll", "Lt"]), ("lc", ["Lu", "Ll", "Lt"]),
   ("modifierletter", ["Lm"]), ("otherletter", ["Lo"]), ("mark", ["M"]), ("combiningmark", ["M"]),
   ("nonspacingmark", ["Mn"]), ("spacingmark", ["Mc"]), ("enclosingmark", ["Me"]),
   ("number", ["N"]), ("decimalnumber", ["Nd"]), ("digit", ["Nd"]), ("letternumber", ["Nl"]),
   ("othernumber", ["No"]), ("punctuation", ["P"]), ("punct", ["P"]),
   ("connectorpunctuation", ["Pc"]), ("dashpunctuation", ["Pd"]), ("openpunctuation", ["Ps"]),
   ("closepunctuation", ["Pe"]), ("initialpunctuation", ["Pi"]), ("finalpunctuation", ["Pf"]),
   ("otherpunctuation", ["Po"]), ("symbol", ["S"]), ("mathsymbol", ["Sm"]),
   ("currencysymbol", ["Sc"]), ("modifiersymbol", ["Sk"]), ("othersymbol", ["So"]),
   ("separator", ["Z"]), ("spaceseparator", ["Zs"]), ("lineseparator", ["Zl"]),
   ("paragraphseparator", ["Zp"]), ("other", ["C"]), ("control", ["Cc"]), ("cntrl", ["Cc"]),
   ("format", ["Cf"]), ("privateuse", ["Co"]), ("unassigned", ["Cn"])]

/-- Whether an abbreviation names a category or the group of its first letter. -/
def names (abbreviation : String) (category : Unicode.Category) : Bool :=
  let own := category.abbreviation.toList.map Char.toLower
  let asked := abbreviation.toList.map Char.toLower
  asked == own || asked == own.take 1

/-- The characters of a general category or a group of categories. Surrogates are no characters. -/
def category? (name : String) : Option CharSet :=
  if name == "any" then some all
  else if name == "ascii" then some ⟨#[(0, 0x7F)]⟩
  else if name == "assigned" then some (ofCategories (· != .unassigned))
  else if name == "cs" then none
  else if Unicode.Category.all.any (names name) then some (ofCategories (names name))
  else (longNames.lookup name).map fun abbreviations =>
    ofCategories fun category => abbreviations.any fun abbreviation => names abbreviation category

/-- The short names of scripts. -/
def scriptAliases : List (String × String) :=
  [("latn", "latin"), ("grek", "greek"), ("cyrl", "cyrillic"), ("hani", "han"),
   ("hira", "hiragana"), ("kana", "katakana"), ("hang", "hangul"), ("arab", "arabic"),
   ("hebr", "hebrew"), ("deva", "devanagari"), ("armn", "armenian"), ("geor", "georgian"),
   ("beng", "bengali"), ("taml", "tamil")]

/-- The characters of a script. -/
def script? (name : String) : Option CharSet :=
  (Unicode.scripts.lookup ((scriptAliases.lookup name).getD name)).map fun ranges => ⟨ranges⟩

/-- The characters that have a property. -/
def having? : String → Option CharSet
  | "alphabetic" | "alpha" => some alphabetic
  | "lowercase" | "lower" => some lowercase
  | "uppercase" | "upper" => some uppercase
  | "whitespace" | "space" | "wspace" => some blanks
  | "cased" => some ⟨Unicode.cased⟩
  | "caseignorable" | "ci" => some ⟨Unicode.caseIgnorable⟩
  | _ => none

/-- A name of the Unicode database in the form in which names are compared: without `is` in front,
and case, blanks, hyphens and underscores do not count. -/
def plainName (name : List Char) : String :=
  let name := (name.filter (· ≤ '\x7f')).map Char.toLower
  let name := match name with
    | 'i' :: 's' :: rest => rest
    | name => name
  String.ofList (name.filter fun c => c != ' ' && c != '_' && c != '-')

/-- The characters of a property, a category or a script by its name. -/
def property? (name : List Char) : Option CharSet :=
  having? (plainName name) <|> category? (plainName name) <|> script? (plainName name)

/-- The characters for which a property has a value. -/
def propertyValue? (name value : List Char) : Option CharSet :=
  match plainName name with
  | "gc" | "generalcategory" => category? (plainName value)
  | "sc" | "script" | "scx" | "scriptextensions" => script? (plainName value)
  | _ => none

end CharSet

end FieldResolver.Regex
