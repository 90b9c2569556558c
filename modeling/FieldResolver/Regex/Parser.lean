/-
**Reading regular expressions.**

The syntax has no look-around and no references back to groups. Classes of characters follow
Unicode unless the flag `u` is turned off. Flags set inside a group end with it.
-/

import FieldResolver.Regex.Syntax
import FieldResolver.Json.Reader
import FieldResolver.Text.Search

namespace FieldResolver.Regex

/-- Why a text is not a regular expression. -/
inductive Malformed where
  | repetitionMissing
  | repetitionUnclosed
  | repetitionEmpty
  | repetitionRange
  | groupUnclosed
  | groupUnopened
  | groupName
  | lookAround
  | flag
  | classUnclosed
  | classRange
  | classEscape
  | escapeEnd
  | backreference
  | escapeUnknown
  | hexadecimal
  | property
  | bytes
  | budget
  | tooLarge
deriving DecidableEq

/-- What is wrong with an expression, in words. -/
def Malformed.reason : Malformed → String
  | .repetitionMissing => "repetition operator missing expression"
  | .repetitionUnclosed => "unclosed counted repetition"
  | .repetitionEmpty => "repetition quantifier expects a valid decimal"
  | .repetitionRange =>
    "invalid repetition count range, the start must be <= the end"
  | .groupUnclosed => "unclosed group"
  | .groupUnopened => "unopened group"
  | .groupName => "invalid capture group character"
  | .lookAround =>
    "look-around, including look-ahead and look-behind, is not supported"
  | .flag => "unrecognized flag"
  | .classUnclosed => "unclosed character class"
  | .classRange =>
    "invalid character class range, the start must be <= the end"
  | .classEscape => "invalid escape sequence found in character class"
  | .escapeEnd => "incomplete escape sequence, reached end of pattern prematurely"
  | .backreference => "backreferences are not supported"
  | .escapeUnknown => "unrecognized escape sequence"
  | .hexadecimal => "hexadecimal literal is not a Unicode scalar value"
  | .property => "Unicode property not found"
  | .bytes => "pattern can match invalid UTF-8"
  | .budget => "exceed the maximum number of nested parentheses/brackets"
  | .tooLarge => "Compiled regex exceeds size limit of 10485760 bytes."

/-- The wording of an error. -/
def Malformed.message : Malformed → String
  | .tooLarge => Malformed.tooLarge.reason
  | error => "regex parse error: " ++ error.reason

/-- The flags in force at a place of an expression. -/
structure Flags where
  ignoreCase : Bool := false
  multiLine : Bool := false
  dotAll : Bool := false
  swapGreed : Bool := false
  unicode : Bool := true
  crlf : Bool := false
  verbose : Bool := false

/-- The characters that count as those of a set. -/
def Flags.folded (flags : Flags) (set : CharSet) : CharSet :=
  if !flags.ignoreCase then set
  else if flags.unicode then set.foldCase
  else set.foldAscii

/-- A set or, if asked for, the other characters; those outside ASCII are whole characters only in
Unicode mode. -/
def Flags.negated? (flags : Flags) (negated : Bool) (set : CharSet) : Except Malformed CharSet :=
  if !negated then .ok set
  else if flags.unicode then .ok set.complement
  else .error .bytes

/-- The state of a reading: the text that is left, the flags, the number of the next group and the
groups named so far. -/
structure Scan where
  rest : List Char
  flags : Flags := {}
  nextGroup : Nat := 1
  names : List (String × Nat) := []

/-- What an element of a sequence is: an expression, or flags, which cannot be repeated. -/
inductive Element where
  | expression (body : Regex)
  | flags

/-- In verbose text, drops blanks and comments. -/
def dropVerbose : Nat → List Char → List Char
  | 0, text => text
  | budget + 1, text =>
    match text with
    | '#' :: rest => dropVerbose budget (rest.dropWhile (· ≠ '\n'))
    | c :: rest => if Text.isBlank c then dropVerbose budget rest else c :: rest
    | [] => []

/-- The text that is left, without what verbose text leaves out. -/
def Scan.text (scan : Scan) : List Char :=
  if scan.flags.verbose then dropVerbose scan.rest.length scan.rest else scan.rest

/-- The characters that have a meaning of their own. -/
def isMeta (c : Char) : Bool := "\\.+*?()|[]\x7b\x7d^$#&-~".toList.contains c

/-- Whether a backslash may stand in front of a character that has no meaning of its own. -/
def isEscapable (c : Char) : Bool := decide (c.toNat < 128) && !c.isAlphanum && c != '<' && c != '>'

/-- What an escape stands for. -/
inductive Escape where
  | literal (c : Char)
  | chars (set : CharSet)
  | look (condition : Look)

/-- The class of a letter behind a backslash; a capital stands for the complement. -/
def letterClass? (flags : Flags) (c : Char) : Option (Except Malformed CharSet) :=
  let pick (unicode ascii : CharSet) := if flags.unicode then unicode else ascii
  match c with
  | 'd' => some (.ok (pick .digits .asciiDigits))
  | 's' => some (.ok (pick .blanks .asciiBlanks))
  | 'w' => some (.ok (pick .wordChars .asciiWordChars))
  | 'D' => some (flags.negated? true .digits)
  | 'S' => some (flags.negated? true .blanks)
  | 'W' => some (flags.negated? true .wordChars)
  | _ => none

/-- The character of a code point given in hexadecimal digits. -/
def ofHex (digits : List Char) : Except Malformed Char :=
  match digits.mapM Json.hexValue? with
  | none => .error .hexadecimal
  | some values =>
    let code := values.foldl (fun n d => 16 * n + d) 0
    if digits.isEmpty || !code.isValidChar then .error .hexadecimal else .ok (Char.ofNat code)

/-- A code point behind `\x`, `\u` or `\U`: a fixed number of digits, or any number in braces. -/
def hexEscape (count : Nat) : List Char → Except Malformed (Char × List Char)
  | '\x7b' :: rest => do
    match rest.dropWhile (· ≠ '\x7d') with
    | _ :: behind => .ok (← ofHex (rest.takeWhile (· ≠ '\x7d')), behind)
    | [] => .error .escapeEnd
  | text => do
    if text.length < count then .error .escapeEnd
    else .ok (← ofHex (text.take count), text.drop count)

/-- The property that stands in braces: a name, or a name and a value, which an exclamation mark in
front of the equals sign rules out. The answer says whether it does. -/
def bracedProperty? (text : List Char) : Option (CharSet × Bool) :=
  match Text.splitOnce? ['!', '='] text with
  | some (name, value) => (CharSet.propertyValue? name value).map (·, true)
  | none =>
    match Text.splitOnce? [':'] text <|> Text.splitOnce? ['='] text with
    | some (name, value) => (CharSet.propertyValue? name value).map (·, false)
    | none => (CharSet.property? text).map (·, false)

/-- The property behind `\p`: one letter, or a name in braces. -/
def propertyEscape (flags : Flags) (negated : Bool) :
    List Char → Except Malformed (CharSet × List Char)
  | [] => .error .escapeEnd
  | '\x7b' :: rest =>
    match rest.dropWhile (· ≠ '\x7d') with
    | [] => .error .escapeEnd
    | _ :: behind =>
      match bracedProperty? (rest.takeWhile (· ≠ '\x7d')) with
      | some (set, ruledOut) => do
        .ok (← flags.negated? (negated != ruledOut) (flags.folded set), behind)
      | none => .error .property
  | c :: rest =>
    match CharSet.property? [c] with
    | some set => do .ok (← flags.negated? negated (flags.folded set), rest)
    | none => .error .property

/-- A condition on words in braces behind `\b`, if there is one. -/
def wordCondition? (text : List Char) : Option (Except Malformed (Look × List Char)) :=
  match text with
  | '\x7b' :: rest =>
    let name := rest.takeWhile fun c => c.isAlpha || c == '-'
    match rest.dropWhile fun c => c.isAlpha || c == '-' with
    | '\x7d' :: behind =>
      if name.isEmpty then none
      else some (match String.ofList name with
        | "start" => .ok (.wordStart, behind)
        | "end" => .ok (.wordEnd, behind)
        | "start-half" => .ok (.wordStartHalf, behind)
        | "end-half" => .ok (.wordEndHalf, behind)
        | _ => .error .escapeUnknown)
    | _ => none
  | _ => none

/-- What follows a backslash. -/
def escape (flags : Flags) : List Char → Except Malformed (Escape × List Char)
  | [] => .error .escapeEnd
  | c :: rest =>
    if c.isDigit then .error .backreference
    else match letterClass? flags c with
    | some set => do .ok (.chars (← set), rest)
    | none => do
      match c with
      | 'x' => let (c, rest) ← hexEscape 2 rest; .ok (.literal c, rest)
      | 'u' => let (c, rest) ← hexEscape 4 rest; .ok (.literal c, rest)
      | 'U' => let (c, rest) ← hexEscape 8 rest; .ok (.literal c, rest)
      | 'p' | 'P' =>
        if flags.unicode then
          let (set, rest) ← propertyEscape flags (c == 'P') rest
          .ok (.chars set, rest)
        else .error .bytes
      | 'a' => .ok (.literal (Char.ofNat 7), rest)
      | 'f' => .ok (.literal (Char.ofNat 12), rest)
      | 't' => .ok (.literal '\t', rest)
      | 'n' => .ok (.literal '\n', rest)
      | 'r' => .ok (.literal '\r', rest)
      | 'v' => .ok (.literal (Char.ofNat 11), rest)
      | 'A' => .ok (.look .textStart, rest)
      | 'z' => .ok (.look .textEnd, rest)
      | 'B' => .ok (.look (.notWordBoundary flags.unicode), rest)
      | '<' => .ok (.look .wordStart, rest)
      | '>' => .ok (.look .wordEnd, rest)
      | 'b' =>
        match wordCondition? rest with
        | some found => do
          let (condition, rest) ← found
          .ok (.look condition, rest)
        | none => .ok (.look (.wordBoundary flags.unicode), rest)
      | c => if isMeta c || isEscapable c then .ok (.literal c, rest) else .error .escapeUnknown

section Classes

/-- An operation between two sets in brackets. -/
inductive SetOp where
  | inter
  | diff
  | symmDiff

/-- Applies an operation. -/
def SetOp.apply : SetOp → CharSet → CharSet → CharSet
  | .inter, a, b => a.inter b
  | .diff, a, b => a.diff b
  | .symmDiff, a, b => a.symmDiff b

/-- Joins the set in front of an operation with the one behind it. -/
def joinOp (flags : Flags) (pending : Option (CharSet × SetOp)) (set : CharSet) : CharSet :=
  match pending with
  | some (front, op) => op.apply (flags.folded front) (flags.folded set)
  | none => set

/-- A class such as `[:alpha:]` at its opening bracket, if there is one, and whether a caret asks
for the other characters. -/
def namedClass? : List Char → Option (CharSet × Bool × List Char)
  | '[' :: ':' :: rest =>
    let (negated, rest) := match rest with
      | '^' :: rest => (true, rest)
      | rest => (false, rest)
    match rest.dropWhile (· ≠ ':') with
    | ':' :: ']' :: behind =>
      (CharSet.named? (String.ofList (rest.takeWhile (· ≠ ':')))).map (·, negated, behind)
    | _ => none
  | _ => none

/-- The start of a class behind its opening bracket: whether a caret negates it, and the hyphens or
the closing bracket that stand for themselves there. -/
def classOpening (flags : Flags) (text : List Char) : Bool × CharSet × List Char :=
  let clean (text : List Char) := ({ rest := text, flags } : Scan).text
  let (negated, rest) := match clean text with
    | '^' :: rest => (true, clean rest)
    | rest => (false, rest)
  let rec hyphens : Nat → List Char → Bool × List Char
    | budget + 1, '-' :: rest => (true, (hyphens budget (clean rest)).2)
    | _, rest => (false, rest)
  match hyphens rest.length rest with
  | (true, rest) => (negated, .singleton '-', rest)
  | (false, ']' :: rest) => (negated, .singleton ']', rest)
  | (false, rest) => (negated, .empty, rest)

/-- A character or a class that may stand in brackets. -/
def classItem (flags : Flags) : List Char → Except Malformed (Escape × List Char)
  | [] => .error .classUnclosed
  | '\\' :: rest => do
    let (found, rest) ← escape flags rest
    match found with
    | .look _ => .error .classEscape
    | found => .ok (found, rest)
  | c :: rest => .ok (.literal c, rest)

/-- A range, a character or a class in brackets. -/
def classRange (flags : Flags) (text : List Char) : Except Malformed (CharSet × List Char) := do
  let clean (text : List Char) := ({ rest := text, flags } : Scan).text
  let (first, rest) ← classItem flags text
  let single : Except Malformed (CharSet × List Char) :=
    match first with
    | .literal c => .ok (.singleton c, rest)
    | .chars set => .ok (set, rest)
    | .look _ => .error .classEscape
  match clean rest with
  | '-' :: behind =>
    match clean behind with
    | ']' :: _ => single
    | '-' :: _ => single
    | next =>
      let (last, rest) ← classItem flags next
      match first, last with
      | .literal a, .literal b =>
        if a ≤ b then .ok (⟨#[(a.toNat, b.toNat)]⟩, rest) else .error .classRange
      | _, _ => .error .classRange
  | _ => single

/-- The inside of brackets behind what was read: the operation waiting for its right side and the
set read since. -/
def classBody (flags : Flags) :
    Nat → Option (CharSet × SetOp) → CharSet → List Char → Except Malformed (CharSet × List Char)
  | 0, _, _, _ => .error .budget
  | budget + 1, pending, set, text =>
    let text := ({ rest := text, flags } : Scan).text
    let operation (op : SetOp) (rest : List Char) :=
      classBody flags budget (some (joinOp flags pending set, op)) .empty rest
    match text with
    | [] => .error .classUnclosed
    | ']' :: rest => .ok (flags.folded (joinOp flags pending set), rest)
    | '&' :: '&' :: rest => operation .inter rest
    | '-' :: '-' :: rest => operation .diff rest
    | '~' :: '~' :: rest => operation .symmDiff rest
    | '[' :: rest =>
      match namedClass? text with
      | some (named, negated, behind) => do
        let named ← flags.negated? negated (flags.folded named)
        classBody flags budget pending (set.union named) behind
      | none => do
        let (negated, start, rest) := classOpening flags rest
        let (inner, rest) ← classBody flags budget none start rest
        let inner ← flags.negated? negated inner
        classBody flags budget pending (set.union inner) rest
    | text => do
      let (range, rest) ← classRange flags text
      classBody flags budget pending (set.union range) rest

/-- A class at its opening bracket. -/
def bracketClass (flags : Flags) (text : List Char) : Except Malformed (CharSet × List Char) :=
  match text with
  | '[' :: rest => do
    let (negated, start, rest) := classOpening flags rest
    let (set, rest) ← classBody flags (text.length + 1) none start rest
    .ok (← flags.negated? negated set, rest)
  | _ => .error .classUnclosed

end Classes

section Repetition

/-- A decimal number with blanks around it, below `2 ^ 32`. -/
def count? (text : List Char) : Option Nat × List Char :=
  let text := text.dropWhile Text.isBlank
  let digits := text.takeWhile Decimal.isDigit
  let rest := (text.dropWhile Decimal.isDigit).dropWhile Text.isBlank
  let value := Decimal.natOfDigits digits 0
  (if digits.isEmpty || decide (0x100000000 ≤ value) then none else some value, rest)

/-- The bounds behind an opening brace, through the closing one. -/
def bounds (text : List Char) : Except Malformed ((Nat × Option Nat) × List Char) :=
  if text.isEmpty then .error .repetitionUnclosed
  else
    let (least, rest) := count? text
    match rest with
    | [] => .error .repetitionUnclosed
    | ',' :: rest =>
      match rest with
      | [] => .error .repetitionUnclosed
      | '\x7d' :: behind =>
        match least with
        | some least => .ok ((least, none), behind)
        | none => .error .repetitionEmpty
      | rest =>
        match least, count? rest with
        | none, _ => .error .repetitionEmpty
        | some _, (none, _) => .error .repetitionEmpty
        | some least, (some most, '\x7d' :: behind) =>
          if least ≤ most then .ok ((least, some most), behind) else .error .repetitionRange
        | some _, (some _, _) => .error .repetitionUnclosed
    | '\x7d' :: behind =>
      match least with
      | some least => .ok ((least, some least), behind)
      | none => .error .repetitionEmpty
    | _ => match least with
      | some _ => .error .repetitionUnclosed
      | none => .error .repetitionEmpty

/-- Whether a question mark follows, and the text behind it. -/
def questionMark : List Char → Bool × List Char
  | '?' :: rest => (true, rest)
  | rest => (false, rest)

end Repetition

section Groups

/-- Sets or clears a flag. -/
def Flags.with (flags : Flags) (on : Bool) : Char → Option Flags
  | 'i' => some { flags with ignoreCase := on }
  | 'm' => some { flags with multiLine := on }
  | 's' => some { flags with dotAll := on }
  | 'U' => some { flags with swapGreed := on }
  | 'u' => some { flags with unicode := on }
  | 'R' => some { flags with crlf := on }
  | 'x' => some { flags with verbose := on }
  | _ => none

/-- Flags up to a colon or a closing parenthesis, each at most once; the latest character read,
whether a minus has been seen and which flags. The answer says whether there were none. -/
def readFlags (flags : Flags) (minus lastMinus : Bool) (seen : List Char) :
    List Char → Except Malformed (Flags × Bool × List Char)
  | [] => .error .groupUnclosed
  | c :: rest =>
    if c = ':' || c = ')' then
      if lastMinus then .error .flag else .ok (flags, seen.isEmpty && !minus, c :: rest)
    else if c = '-' then
      if minus then .error .flag else readFlags flags true true seen rest
    else if seen.contains c then .error .flag
    else match flags.with (!minus) c with
      | some flags => readFlags flags minus false (c :: seen) rest
      | none => .error .flag

/-- A group's name up to the closing bracket. -/
def groupName (text : List Char) : Except Malformed (String × List Char) :=
  let name := text.takeWhile (· ≠ '>')
  match text.dropWhile (· ≠ '>'), name with
  | _ :: behind, first :: others =>
    if (first == '_' || Unicode.isAlphabetic first) &&
        others.all (fun c => c == '_' || c == '.' || c == '[' || c == ']' ||
          Unicode.isAlphanumeric c) then
      .ok (String.ofList name, behind)
    else .error .groupName
  | _, _ => .error .groupName

end Groups

/-- Any character but a line break, unless the flags let a dot match all. -/
def dot (flags : Flags) : Except Malformed CharSet :=
  if !flags.unicode then .error .bytes
  else if flags.dotAll then .ok .all
  else if flags.crlf then .ok (CharSet.ofRanges [(10, 10), (13, 13)]).complement
  else .ok (CharSet.singleton '\n').complement

/-- A sequence of elements in their order. -/
def sequence (elements : List Element) : Regex :=
  let bodies := elements.filterMap fun
    | .expression body => some body
    | .flags => none
  match bodies.reverse with
  | [] => .empty
  | last :: front => front.foldl (fun rest body => .concat body rest) last

/-- The latest element, which a repetition applies to, and those in front of it. -/
def repeatable : List Element → Except Malformed (Regex × List Element)
  | .expression body :: front => .ok (body, front)
  | _ => .error .repetitionMissing

mutual

/-- Branches up to the end of the group or of the text. -/
def branches (budget : Nat) (scan : Scan) : Except Malformed (Regex × Scan) :=
  match budget with
  | 0 => .error .budget
  | budget + 1 => do
    let (first, scan) ← elements budget [] scan
    match scan.text with
    | '|' :: rest =>
      let (second, scan) ← branches budget { scan with rest }
      .ok (.either first second, scan)
    | _ => .ok (first, scan)

/-- The elements of a branch behind those read so far, the latest first. -/
def elements (budget : Nat) (read : List Element) (scan : Scan) :
    Except Malformed (Regex × Scan) :=
  match budget with
  | 0 => .error .budget
  | budget + 1 =>
    let flags := scan.flags
    let add (body : Regex) (rest : List Char) :=
      elements budget (.expression body :: read) { scan with rest }
    let again (least : Nat) (most : Option Nat) (rest : List Char) :=
      match repeatable read with
      | .error error => .error error
      | .ok (body, front) =>
        let (lazy, rest) := questionMark rest
        elements budget (.expression (.repeated least most (lazy == flags.swapGreed) body) :: front)
          { scan with rest }
    match scan.text with
    | [] => .ok (sequence read.reverse, { scan with rest := [] })
    | c :: rest =>
      match c with
      | '|' | ')' => .ok (sequence read.reverse, { scan with rest := c :: rest })
      | '*' => again 0 none rest
      | '+' => again 1 none rest
      | '?' => again 0 (some 1) rest
      | '\x7b' => do
        let _ ← repeatable read
        let ((least, most), rest) ← bounds rest
        again least most ({ scan with rest } : Scan).text
      | '(' => do
        let (element, scan) ← group budget { scan with rest }
        elements budget (element :: read) scan
      | '[' => do
        let (set, rest) ← bracketClass flags (c :: rest)
        add (.oneOf set) rest
      | '.' => do add (.oneOf (← dot flags)) rest
      | '^' => add (.look (if flags.multiLine then .lineStart flags.crlf else .textStart)) rest
      | '$' => add (.look (if flags.multiLine then .lineEnd flags.crlf else .textEnd)) rest
      | '\\' => do
        let (found, rest) ← escape flags rest
        match found with
        | .literal c => add (.oneOf (flags.folded (.singleton c))) rest
        | .chars set => add (.oneOf set) rest
        | .look condition => add (.look condition) rest
      | c => add (.oneOf (flags.folded (.singleton c))) rest

/-- A group behind its opening parenthesis. -/
def group (budget : Nat) (scan : Scan) : Except Malformed (Element × Scan) :=
  match budget with
  | 0 => .error .budget
  | budget + 1 =>
    let outer := scan.flags
    let inside (scan : Scan) : Except Malformed (Regex × Scan) := do
      let (body, scan) ← branches budget scan
      match scan.text with
      | ')' :: rest => .ok (body, { scan with rest, flags := outer })
      | _ => .error .groupUnclosed
    let named (text : List Char) : Except Malformed (Element × Scan) := do
      let (name, rest) ← groupName text
      if (scan.names.lookup name).isSome then .error .groupName
      else
        let number := scan.nextGroup
        let (body, scan) ← inside
          { scan with rest, nextGroup := number + 1, names := (name, number) :: scan.names }
        .ok (.expression (.capture number body), scan)
    match scan.text with
    | '?' :: '=' :: _ => .error .lookAround
    | '?' :: '!' :: _ => .error .lookAround
    | '?' :: '<' :: '=' :: _ => .error .lookAround
    | '?' :: '<' :: '!' :: _ => .error .lookAround
    | '?' :: 'P' :: '<' :: rest => named rest
    | '?' :: '<' :: rest => named rest
    | '?' :: rest => do
      let (flags, noFlags, rest) ← readFlags scan.flags false false [] rest
      match rest with
      | ')' :: rest =>
        if noFlags then .error .repetitionMissing else .ok (.flags, { scan with rest, flags })
      | _ :: rest =>
        let (body, scan) ← inside { scan with rest, flags }
        .ok (.expression body, scan)
      | [] => .error .groupUnclosed
    | rest => do
      let number := scan.nextGroup
      let (body, scan) ← inside { scan with rest, nextGroup := number + 1 }
      .ok (.expression (.capture number body), scan)

end

/-- Reads a whole text as a regular expression. -/
def parse (text : List Char) : Except Malformed Pattern := do
  let (body, scan) ← branches (4 * (text.length + 2)) { rest := text }
  match scan.text with
  | [] =>
    if sizeLimit < body.size then .error .tooLarge
    else .ok { body, groups := scan.nextGroup, names := scan.names }
  | _ => .error .groupUnopened

end FieldResolver.Regex
