/-
**Matching.**

The search follows the preferred way first and comes back to the others. Whether a pair of an
instruction and a place leads to a match does not depend on how it was reached, so each pair is
looked at once: a search ends after at most two steps for every pair.
-/

import FieldResolver.Regex.Program
import FieldResolver.Regex.Parser

namespace FieldResolver.Regex

/-- A place to go on from, with the slots recorded on the way. -/
structure Task where
  instruction : Nat
  place : Nat
  slots : Array (Option Nat)

/-- Whether the characters around a place are of words. -/
def wordAround (isWord : Char → Bool) (text : Array Char) (place : Nat) : Bool × Bool :=
  let before := match place with
    | 0 => false
    | n + 1 => (text[n]?).any isWord
  (before, (text[place]?).any isWord)

/-- Whether a character is an ASCII letter, digit or underscore. -/
def isAsciiWord (c : Char) : Bool := c.isAlphanum || c == '_'

/-- Whether a condition holds at a place. -/
def Look.holds (condition : Look) (text : Array Char) (place : Nat) : Bool :=
  let words (unicode : Bool) :=
    wordAround (if unicode then Unicode.isWordChar else isAsciiWord) text place
  match condition with
  | .textStart => place == 0
  | .textEnd => place == text.size
  | .lineStart crlf => match place with
    | 0 => true
    | n + 1 => text[n]? == some '\n' ||
      (crlf && text[n]? == some '\r' && text[n + 1]? != some '\n')
  | .lineEnd crlf =>
    place == text.size || (crlf && text[place]? == some '\r') ||
      (text[place]? == some '\n' &&
        !(crlf && decide (0 < place) && text[place - 1]? == some '\r'))
  | .wordBoundary unicode => (words unicode).1 != (words unicode).2
  | .notWordBoundary unicode => (words unicode).1 == (words unicode).2
  | .wordStart => !(words true).1 && (words true).2
  | .wordEnd => (words true).1 && !(words true).2
  | .wordStartHalf => !(words true).1
  | .wordEndHalf => !(words true).2

/-- Where an instruction leads from a place, the preferred way first; `none` for a match. -/
def Instruction.follow (instruction : Instruction) (text : Array Char) (task : Task) :
    Option (List Task) :=
  match instruction with
  | .accept => none
  | .take chars next =>
    if (text[task.place]?).any chars.contains then
      some [{ task with instruction := next, place := task.place + 1 }]
    else some []
  | .look condition next =>
    if condition.holds text task.place then some [{ task with instruction := next }] else some []
  | .save slot next =>
    let slots := task.slots.setIfInBounds slot (some task.place)
    some [{ task with instruction := next, slots }]
  | .split preferred other =>
    some [{ task with instruction := preferred }, { task with instruction := other }]
  | .jump next => some [{ task with instruction := next }]

/-- Follows the tasks in order until one reaches a match. The flags tell which pairs were met. -/
def run (program : Program) (text : Array Char) :
    Nat → List Task → Array Bool → Option (Array (Option Nat)) × Array Bool
  | 0, _, met => (none, met)
  | _ + 1, [], met => (none, met)
  | budget + 1, task :: rest, met =>
    let pair := task.instruction * (text.size + 1) + task.place
    if met[pair]?.getD true then run program text budget rest met
    else
      let met := met.setIfInBounds pair true
      match program[task.instruction]? with
      | none => run program text budget rest met
      | some instruction =>
        match instruction.follow text task with
        | none => (some task.slots, met)
        | some tasks => run program text budget (tasks ++ rest) met

namespace Compiled

/-- The number of pairs of an instruction and a place. -/
def pairs (regex : Compiled) (text : Array Char) : Nat := regex.program.size * (text.size + 1)

/-- Tries the places from `place` on; `left` places are left. -/
def searchFrom (regex : Compiled) (text : Array Char) :
    Nat → Nat → Array Bool → Option (Array (Option Nat))
  | 0, _, _ => none
  | left + 1, place, met =>
    let start : Task := ⟨regex.entry, place, Array.replicate (2 * regex.groups) none⟩
    match run regex.program text (2 * regex.pairs text + 2) [start] met with
    | (some slots, _) => some slots
    | (none, met) => searchFrom regex text left (place + 1) met

/-- The slots of the leftmost match at or behind a place. -/
def search? (regex : Compiled) (text : Array Char) (place : Nat) : Option (Array (Option Nat)) :=
  if text.size < place then none
  else searchFrom regex text (text.size + 1 - place) place
    (Array.replicate (regex.pairs text) false)

/-- Whether there is a match anywhere. -/
def isMatch (regex : Compiled) (text : List Char) : Bool := (regex.search? text.toArray 0).isSome

end Compiled

/-- A match: where it starts and ends, and the slots of all groups. -/
structure Match where
  start : Nat
  stop : Nat
  slots : Array (Option Nat)

/-- The match that slots describe. -/
def Match.ofSlots? (slots : Array (Option Nat)) : Option Match :=
  match slots[0]?, slots[1]? with
  | some (some start), some (some stop) => some ⟨start, stop, slots⟩
  | _, _ => none

/-- The text of a group; a group that took no part has none. -/
def Match.group (found : Match) (text : Array Char) (number : Nat) : List Char :=
  match found.slots[2 * number]?, found.slots[2 * number + 1]? with
  | some (some start), some (some stop) => (text.extract start stop).toList
  | _, _ => []

namespace Compiled

/-- The matches at or behind a place, none overlapping the one before. An empty match at the end of
the last match is passed over. -/
def matchesFrom (regex : Compiled) (text : Array Char) :
    Nat → Nat → Option Nat → List Match
  | 0, _, _ => []
  | budget + 1, place, lastStop =>
    match (regex.search? text place).bind Match.ofSlots? with
    | none => []
    | some found =>
      if found.start == found.stop && lastStop == some found.stop then
        matchesFrom regex text budget (place + 1) lastStop
      else found :: matchesFrom regex text budget found.stop (some found.stop)

/-- All matches from left to right. -/
def allMatches (regex : Compiled) (text : Array Char) : List Match :=
  regex.matchesFrom text (2 * text.size + 3) 0 none

end Compiled

section Replacing

/-- Whether a character may stand in a group's name behind a dollar sign. -/
def isReferenceChar (c : Char) : Bool := c.isAlphanum || c == '_'

/-- The text of the group that a name or a number refers to. -/
def reference (regex : Compiled) (text : Array Char) (found : Match) (name : List Char) :
    List Char :=
  let digits := match name with
    | '+' :: digits => digits
    | digits => digits
  if !digits.isEmpty && digits.all Char.isDigit then
    found.group text (Decimal.natOfDigits digits 0)
  else match regex.names.lookup (String.ofList name) with
    | some number => found.group text number
    | none => []

/-- Expands a replacement: `$$` is a dollar sign, `$name` and `${name}` are groups. -/
def expand (regex : Compiled) (text : Array Char) (found : Match) :
    Nat → List Char → List Char
  | 0, _ => []
  | _ + 1, [] => []
  | budget + 1, c :: rest =>
    if c ≠ '$' then c :: expand regex text found budget rest
    else
      match rest with
      | '$' :: rest => '$' :: expand regex text found budget rest
      | '\x7b' :: inner =>
        match inner.dropWhile (· ≠ '\x7d') with
        | _ :: behind =>
          reference regex text found (inner.takeWhile (· ≠ '\x7d')) ++
            expand regex text found budget behind
        | [] => '$' :: expand regex text found budget rest
      | rest =>
        let name := rest.takeWhile isReferenceChar
        if name.isEmpty then '$' :: expand regex text found budget rest
        else reference regex text found name ++
          expand regex text found budget (rest.dropWhile isReferenceChar)

/-- The text with matches replaced, from a place on. -/
def replaceFrom (regex : Compiled) (text : Array Char) (replacement : List Char) (place : Nat) :
    List Match → List Char
  | [] => (text.extract place text.size).toList
  | found :: rest =>
    (text.extract place found.start).toList ++
      expand regex text found (replacement.length + 1) replacement ++
      replaceFrom regex text replacement found.stop rest

namespace Compiled

/-- Replaces every match. -/
def replaceAll (regex : Compiled) (text replacement : List Char) : List Char :=
  let text := text.toArray
  replaceFrom regex text replacement 0 (regex.allMatches text)

/-- Replaces the first match. -/
def replaceFirst (regex : Compiled) (text replacement : List Char) : List Char :=
  let text := text.toArray
  replaceFrom regex text replacement 0 ((regex.allMatches text).take 1)

/-- The parts between matches, from a place on. -/
def partsFrom (text : Array Char) (place : Nat) : List Match → List (List Char)
  | [] => [(text.extract place text.size).toList]
  | found :: rest => (text.extract place found.start).toList :: partsFrom text found.stop rest

/-- The parts of a text between matches. -/
def split (regex : Compiled) (text : List Char) : List (List Char) :=
  let text := text.toArray
  partsFrom text 0 (regex.allMatches text)

end Compiled

end Replacing

/-- Reads and compiles an expression. -/
def ofText (text : List Char) : Except Malformed Compiled := (parse text).map Pattern.compiled

/-- The expression that matches only whole texts. -/
def wholeText (text : List Char) : List Char := "^(?:".toList ++ text ++ ")$".toList

end FieldResolver.Regex
