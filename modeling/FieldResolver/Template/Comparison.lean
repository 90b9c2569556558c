/-
**Equality and order of template values.**

Two containers are equal if they have equal parts. They may contain themselves, so the comparison
remembers the pairs of containers that it is inside of: meeting such a pair again means that the two
recur in the same way. A way down meets every pair at most once before it meets one again, so a
budget of one more than the number of pairs never runs out.
-/

import FieldResolver.Template.Tree

namespace FieldResolver.Template

/-- Whether two values that are not both containers of one kind are equal. Numbers compare by value;
a string equals a number or a boolean that has its text. -/
def sameScalar : Value → Value → Bool
  | .undefined, other | .null, other => other.isNothing
  | other, .undefined | other, .null => other.isNothing
  | .int a, .int b => a == b
  | .int a, .float b => Float.ofInt a == b
  | .float a, .int b => a == Float.ofInt b
  | .float a, .float b => a == b
  | .bool a, .bool b => a == b
  | .string a, .string b => a == b
  | .functions a, .functions b => a == b
  | .string a, .int b => a.toList == Tree.leafText (.int b)
  | .string a, .float b => a.toList == Tree.leafText (.float b)
  | .string a, .bool b => a.toList == Tree.leafText (.bool b)
  | .int a, .string b => b.toList == Tree.leafText (.int a)
  | .float a, .string b => b.toList == Tree.leafText (.float a)
  | .bool a, .string b => b.toList == Tree.leafText (.bool a)
  | _, _ => false

/-- Whether lists have one length and related items at every place. -/
def sameItems (same : Value → Value → Bool) : List Value → List Value → Bool
  | [], [] => true
  | a :: as, b :: bs => same a b && sameItems same as bs
  | _, _ => false

/-- Whether maps have one size and related values under every key of the first. -/
def sameEntries (same : Value → Value → Bool) (a b : Dict Value) : Bool :=
  a.length == b.length &&
    a.all fun entry => match b.get? entry.1 with
      | some other => same entry.2 other
      | none => false

namespace Heap

/-- Whether two values are equal, through at most `budget` levels; `pairs` are the pairs of
containers of one kind that the two stand in. -/
def sameWithin (heap : Heap) : Nat → List (Address × Address) → Value → Value → Bool
  | 0, _, .list _, .list _ => true
  | 0, _, .map _, .map _ => true
  | budget + 1, pairs, .list a, .list b =>
    a == b || pairs.contains (.list a, .list b) ||
      sameItems (sameWithin heap budget ((.list a, .list b) :: pairs)) (heap.list a) (heap.list b)
  | budget + 1, pairs, .map a, .map b =>
    a == b || pairs.contains (.map a, .map b) ||
      sameEntries (sameWithin heap budget ((.map a, .map b) :: pairs)) (heap.map a) (heap.map b)
  | _, _, a, b => sameScalar a b

/-- Whether two values are equal. -/
def same (heap : Heap) (a b : Value) : Bool :=
  heap.sameWithin (heap.size * heap.size + 1) [] a b

end Heap

/-- The order of two numbers or two strings. -/
def Value.compare? : Value → Value → Option Ordering
  | .int a, .int b => some (compare a b)
  | .int a, .float b => Decimal.compareFloats (Float.ofInt a) b
  | .float a, .int b => Decimal.compareFloats a (Float.ofInt b)
  | .float a, .float b => Decimal.compareFloats a b
  | .string a, .string b => some (compare a b)
  | _, _ => none

end FieldResolver.Template
