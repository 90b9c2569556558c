/-
**Finding and replacing text.**

Positions count characters. The empty text occurs at every position.
-/

namespace FieldResolver.Text

/-- The text behind one that comes first. -/
def dropFront? : List Char → List Char → Option (List Char)
  | [], text => some text
  | _ :: _, [] => none
  | w :: wanted, c :: rest => if w = c then dropFront? wanted rest else none

/-- Whether a text comes first. -/
def startsWith (text wanted : List Char) : Bool := wanted.isPrefixOf text

/-- Whether a text comes last. -/
def endsWith (text wanted : List Char) : Bool := wanted.isSuffixOf text

/-- The first position at which a text occurs. -/
def indexOf? (wanted : List Char) : List Char → Option Nat
  | [] => if wanted.isEmpty then some 0 else none
  | c :: rest =>
    if startsWith (c :: rest) wanted then some 0 else (indexOf? wanted rest).map (· + 1)

/-- The last position at which a text occurs. -/
def lastIndexOf? (wanted : List Char) : List Char → Option Nat
  | [] => if wanted.isEmpty then some 0 else none
  | c :: rest =>
    match lastIndexOf? wanted rest with
    | some position => some (position + 1)
    | none => if startsWith (c :: rest) wanted then some 0 else none

/-- Whether a text occurs. -/
def contains (text wanted : List Char) : Bool := (indexOf? wanted text).isSome

/-- The texts in front of the first occurrence of a separator and behind it. -/
def splitOnce? (separator text : List Char) : Option (List Char × List Char) :=
  (indexOf? separator text).map fun place =>
    (text.take place, text.drop (place + separator.length))

/-- Replaces every occurrence from left to right, none overlapping the one before; the budget
bounds the steps. -/
def replaceWithin (wanted replacement : List Char) : Nat → List Char → List Char
  | 0, text => text
  | _ + 1, [] => []
  | budget + 1, c :: rest =>
    match dropFront? wanted (c :: rest) with
    | some behind => replacement ++ replaceWithin wanted replacement budget behind
    | none => c :: replaceWithin wanted replacement budget rest

/-- Replaces every occurrence; an empty text is replaced in front of each character and at the
end. -/
def replace (text wanted replacement : List Char) : List Char :=
  if wanted.isEmpty then (text.flatMap fun c => replacement ++ [c]) ++ replacement
  else replaceWithin wanted replacement text.length text

end FieldResolver.Text
