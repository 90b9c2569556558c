/-
**Operators of the template language.**

Whole numbers have 64 bits and their arithmetic is exact: a result that does not fit is a fault.
Division goes toward zero and the remainder has the sign of the dividend. As soon as one operand is
a double, both are.
-/

import FieldResolver.Template.Comparison
import FieldResolver.Template.Fault
import FieldResolver.Template.Syntax

namespace FieldResolver.Template

/-- The five operators on numbers. -/
inductive Operator where
  | add | sub | mul | div | rem
deriving DecidableEq, Repr

namespace Operator

/-- How an operator is written. -/
def symbol : Operator → String
  | .add => "+"
  | .sub => "-"
  | .mul => "*"
  | .div => "/"
  | .rem => "%"

/-- Whether an operator divides. -/
def divides : Operator → Bool
  | .div | .rem => true
  | _ => false

/-- The exact result on whole numbers; the divisor is not zero. -/
def onInts : Operator → Int → Int → Int
  | .add, a, b => a + b
  | .sub, a, b => a - b
  | .mul, a, b => a * b
  | .div, a, b => a.tdiv b
  | .rem, a, b => a.tmod b

/-- The result on doubles. -/
def onFloats : Operator → Float → Float → Float
  | .add, a, b => a + b
  | .sub, a, b => a - b
  | .mul, a, b => a * b
  | .div, a, b => a / b
  | .rem, a, b => Decimal.remainder a b

/-- Whether the quotient of the operands fits. The remainder by minus one is refused together with
the quotient. -/
def fits : Operator → Int → Int → Bool
  | .rem, a, b => inRange (a.tdiv b)
  | op, a, b => inRange (op.onInts a b)

/-- The result on two whole numbers. -/
def applyInts (op : Operator) (a b : Int) : Except Fault Value :=
  if op.divides && b == 0 then .error .divisionByZero
  else if op.fits a b then .ok (.int (op.onInts a b))
  else .error (.overflow op.symbol)

/-- The result on two doubles. -/
def applyFloats (op : Operator) (a b : Float) : Except Fault Value :=
  if op.divides && b == 0.0 then .error .divisionByZero else .ok (.float (op.onFloats a b))

/-- The result on two values, which have to be numbers. -/
def apply (op : Operator) (a b : Value) : Except Fault Value :=
  match a, b with
  | .int a, .int b => op.applyInts a b
  | a, b =>
    match a.float?, b.float? with
    | some x, some y => op.applyFloats x y
    | _, _ => .error (.operands op.symbol a.kind b.kind)

end Operator

/-- The sum of two numbers, or two texts joined if one operand is a string. -/
def plus (heap : Heap) (a b : Value) : Except Fault Value :=
  if a.kind = .string ∨ b.kind = .string then
    .ok (.string (heap.rendered a ++ heap.rendered b))
  else Operator.add.apply a b

/-- Whether two values stand in an order. -/
def ordered (holds : Ordering → Bool) (a b : Value) : Except Fault Value :=
  match a.compare? b with
  | some ordering => .ok (.bool (holds ordering))
  | none => .error (.comparison a.kind b.kind)

/-- The value of an operator on two values; `and` and `or`, which may skip their second operand,
see both here. -/
def binary (heap : Heap) : BinaryOp → Value → Value → Except Fault Value
  | .or, a, b => .ok (.bool (a.isTruthy || b.isTruthy))
  | .and, a, b => .ok (.bool (a.isTruthy && b.isTruthy))
  | .eq, a, b => .ok (.bool (heap.same a b))
  | .ne, a, b => .ok (.bool !(heap.same a b))
  | .lt, a, b => ordered Ordering.isLT a b
  | .le, a, b => ordered Ordering.isLE a b
  | .gt, a, b => ordered Ordering.isGT a b
  | .ge, a, b => ordered Ordering.isGE a b
  | .add, a, b => plus heap a b
  | .sub, a, b => Operator.sub.apply a b
  | .mul, a, b => Operator.mul.apply a b
  | .div, a, b => Operator.div.apply a b
  | .rem, a, b => Operator.rem.apply a b

/-- The negative of a number. -/
def negated : Value → Except Fault Value
  | .int n => if inRange (-n) then .ok (.int (-n)) else .error .negationOverflow
  | .float x => .ok (.float (-x))
  | other => .error (.negation other.kind)

/-- The greatest number of items of a range. -/
def maxRangeLength : Nat := 10000

/-- The whole numbers from one to another, upward or downward. -/
def steps (first last : Int) : List Int :=
  (List.range ((first - last).natAbs + 1)).map fun (step : Nat) =>
    if first ≤ last then first + step else first - step

/-- The items of a range. -/
def rangeItems : Value → Value → Except Fault (List Value)
  | .int first, .int last =>
    if maxRangeLength ≤ (first - last).natAbs then .error (.rangeSize first last)
    else .ok ((steps first last).map .int)
  | _, _ => .error .rangeBounds

end FieldResolver.Template
