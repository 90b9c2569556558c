/-
**Regular expressions.**

The tree of an expression, with its flags already worked into sets and assertions.
-/

import FieldResolver.Regex.CharSet

namespace FieldResolver

namespace Regex

/-- A condition on a place between two characters. -/
inductive Look where
  | textStart
  | textEnd
  /-- The start of a line; lines end with a line feed or, if asked for, also with a carriage return,
  and the two together are one end. -/
  | lineStart (crlf : Bool)
  | lineEnd (crlf : Bool)
  | wordBoundary (unicode : Bool)
  | notWordBoundary (unicode : Bool)
  | wordStart
  | wordEnd
  | wordStartHalf
  | wordEndHalf
deriving DecidableEq

end Regex

/-- A regular expression. -/
inductive Regex where
  | empty
  | oneOf (chars : Regex.CharSet)
  | look (condition : Regex.Look)
  /-- A group whose extent is recorded under a number. -/
  | capture (number : Nat) (body : Regex)
  | concat (first second : Regex)
  /-- Either expression, the first one preferred. -/
  | either (first second : Regex)
  /-- At least `least` and at most `most` times, as often as possible if greedy. -/
  | repeated (least : Nat) (most : Option Nat) (greedy : Bool) (body : Regex)

namespace Regex

/-- A regular expression with its groups' names. -/
structure Pattern where
  body : Regex
  /-- How many groups there are, the whole match included. -/
  groups : Nat
  names : List (String × Nat)

/-- The bytes that a step of a match on bytes takes. -/
def stateSize : Nat := 32

/-- The bytes that a set takes when it is matched byte by byte. -/
def CharSet.size (set : CharSet) : Nat :=
  let wide := set.ranges.toList.countP fun range => 0x7F < range.2
  let ranges := set.ranges.size
  if wide == 0 then if ranges ≤ 1 then stateSize else stateSize + 8 * ranges
  else stateSize + 2 * stateSize * wide

/-- The bytes that an expression takes when it is matched byte by byte. -/
def size : Regex → Nat
  | .empty => stateSize
  | .oneOf chars => chars.size
  | .look _ => stateSize
  | .capture _ body => body.size + 2 * stateSize
  | .concat first second => first.size + second.size
  | .either first second => first.size + second.size + 2 * stateSize
  | .repeated least most _ body =>
    match most with
    | some most => least * body.size + (most - least) * (body.size + stateSize + 8)
    | none => max least 1 * body.size + stateSize + 8

/-- The greatest size that an expression may have. -/
def sizeLimit : Nat := 10485760

/-- Whether an expression can match no characters. -/
def matchesEmpty : Regex → Bool
  | .empty => true
  | .oneOf _ => false
  | .look _ => true
  | .capture _ body => body.matchesEmpty
  | .concat first second => first.matchesEmpty && second.matchesEmpty
  | .either first second => first.matchesEmpty || second.matchesEmpty
  | .repeated least _ _ body => least == 0 || body.matchesEmpty

end Regex

end FieldResolver
