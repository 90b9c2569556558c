/-
**`$util.list`, `$util.map` and `$util.math`.**
-/

import FieldResolver.Template.Comparison
import FieldResolver.Template.Function.Arguments

namespace FieldResolver.Template.Function

/-- Copies a list with or without the items that equal an item of a second list. -/
def callList (name : String) (call : Call) : Result := do
  let items ← call.list 0
  let others ← call.list 1
  let listed (item : Value) := others.any fun other => call.heap.same other item
  match name with
  | "copyAndRetainAll" => .ok (.list (items.filter listed))
  | "copyAndRemoveAll" => .ok (.list (items.filter fun item => !listed item))
  | _ => .error .unknownFunction

/-- Copies a map with or without the keys that a list names. -/
def callMap (name : String) (call : Call) : Result := do
  let entries ← call.map 0
  let keys := (← call.list 1).map call.heap.rendered
  match name with
  | "copyAndRetainAllKeys" => .ok (.map (entries.filter fun entry => keys.contains entry.1))
  | "copyAndRemoveAllKeys" => .ok (.map (entries.filter fun entry => !keys.contains entry.1))
  | _ => .error .unknownFunction

/-- The nearest whole number; halves go up. -/
def rounded : Value → Value
  | .float x => .int (wholePart (x + 0.5).floor)
  | other => other

/-- A number as a double. -/
def widened : Value → Value
  | .int n => .float (Float.ofInt n)
  | other => other

/-- Calls a function on numbers. Of two numbers without an order the first counts as the smaller. -/
def callMath (name : String) (call : Call) : Result :=
  match name with
  | "roundNum" => do return .value (rounded (← call.number 0))
  | "minVal" => do
    let a ← call.number 0
    let b ← call.number 1
    return .value (widened (if a.compare? b = some .gt then b else a))
  | "maxVal" => do
    let a ← call.number 0
    let b ← call.number 1
    return .value (widened (if a.compare? b = some .gt then a else b))
  | _ => .error .unknownFunction

end FieldResolver.Template.Function
