/-
**Methods of values.**

A method is found by the kind of its target, its name and the number of its arguments. Methods of
lists and maps read and change the container in place; the others only compute.
-/

import FieldResolver.Regex.Matching
import FieldResolver.Template.Comparison
import FieldResolver.Template.Run
import FieldResolver.Text.Blank
import FieldResolver.Text.Search
import FieldResolver.Unicode.Case

namespace FieldResolver.Template

/-- A string argument. -/
def stringArgument (method : String) (arguments : List Value) (place : Nat) :
    Except Fault (List Char) :=
  match arguments[place]? with
  | some (.string text) => .ok text.toList
  | _ => .error (.methodArgument method place .string)

/-- A whole number as an argument; a double counts if it is whole. -/
def integerArgument (method : String) (arguments : List Value) (place : Nat) : Except Fault Int :=
  match arguments[place]? with
  | some (.int n) => .ok n
  | some (.float x) =>
    match Decimal.whole? x with
    | some _ => .ok (wholePart x)
    | none => .error (.methodArgument method place .integer)
  | _ => .error (.methodArgument method place .integer)

/-- An index below a length. -/
def indexArgument (method : String) (arguments : List Value) (place length : Nat) :
    Except Fault Nat := do
  let index ← integerArgument method arguments place
  if 0 ≤ index ∧ index < length then .ok index.toNat
  else .error (.elementBounds method index length)

/-- The key of a map that an argument stands for: its text. -/
def keyArgument (heap : Heap) (method : String) (arguments : List Value) : Except Fault String :=
  match arguments.head? with
  | some value =>
    if value.isNothing then .error (.nullKey method) else .ok (heap.text value)
  | none => .error (.nullKey method)

/-- A regular expression that an argument holds. -/
def regexArgument (pattern : List Char) : Except Fault Regex.Compiled :=
  (Regex.ofText pattern).mapError (.regex (String.ofList pattern))

/-- A string value. -/
def ofChars (text : List Char) : Value := .string (String.ofList text)

/-- A position, or minus one. -/
def positionOrMinusOne : Option Nat → Value
  | some position => .int position
  | none => .int (-1)

/-- Parts without the empty ones at the end; the first part stays. -/
def dropEmptyEnd (parts : List (List Char)) : List (List Char) :=
  match (parts.reverse.dropWhile List.isEmpty).reverse with
  | [] => parts.take 1
  | kept => kept

/-- The part of a text between two positions. -/
def substring (text : List Char) (first last : Int) : Except Fault (List Char) :=
  if first < 0 ∨ (text.length : Int) < last ∨ last < first then
    .error (.substringRange first last text.length)
  else .ok ((text.take last.toNat).drop first.toNat)

/-- The character at a position. -/
def charAt (text : List Char) (index : Int) : Except Fault (List Char) :=
  match if 0 ≤ index then text[index.toNat]? else none with
  | some c => .ok [c]
  | none => .error (.charAtRange index)

/-- What a method of a string gives: a value, or parts that become a list. -/
inductive StringResult where
  | value (value : Value)
  | parts (parts : List (List Char))

/-- Calls a method of a string. -/
def callString (text : List Char) (name : String) (arguments : List Value) :
    Except Fault StringResult :=
  let string := stringArgument name arguments
  let integer := integerArgument name arguments
  match name, arguments.length with
  | "length", 0 => .ok (.value (.int text.length))
  | "isEmpty", 0 => .ok (.value (.bool text.isEmpty))
  | "contains", 1 => do return .value (.bool (Text.contains text (← string 0)))
  | "startsWith", 1 => do return .value (.bool (Text.startsWith text (← string 0)))
  | "endsWith", 1 => do return .value (.bool (Text.endsWith text (← string 0)))
  | "toUpperCase", 0 => .ok (.value (.string (Unicode.uppercase (String.ofList text))))
  | "toLowerCase", 0 => .ok (.value (.string (Unicode.lowercase (String.ofList text))))
  | "trim", 0 => .ok (.value (ofChars (Text.trim text)))
  | "concat", 1 => do return .value (ofChars (text ++ (← string 0)))
  | "equalsIgnoreCase", 1 =>
    .ok (.value (.bool (match arguments.head?.bind Value.string? with
      | some other => Unicode.lowercase other == Unicode.lowercase (String.ofList text)
      | none => false)))
  | "replace", 2 => do
    let wanted ← string 0
    return .value (ofChars (Text.replace text wanted (← string 1)))
  | "replaceAll", 2 => do
    let regex ← regexArgument (← string 0)
    return .value (ofChars (regex.replaceAll text (← string 1)))
  | "replaceFirst", 2 => do
    let regex ← regexArgument (← string 0)
    return .value (ofChars (regex.replaceFirst text (← string 1)))
  | "matches", 1 => do
    let regex ← regexArgument (Regex.wholeText (← string 0))
    return .value (.bool (regex.isMatch text))
  | "split", 1 => do
    let regex ← regexArgument (← string 0)
    return .parts (dropEmptyEnd (regex.split text))
  | "substring", 1 => do return .value (ofChars (← substring text (← integer 0) text.length))
  | "substring", 2 => do
    let first ← integer 0
    return .value (ofChars (← substring text first (← integer 1)))
  | "charAt", 1 => do return .value (ofChars (← charAt text (← integer 0)))
  | "indexOf", 1 => do return .value (positionOrMinusOne (Text.indexOf? (← string 0) text))
  | "lastIndexOf", 1 => do
    return .value (positionOrMinusOne (Text.lastIndexOf? (← string 0) text))
  | _, count => .error (.unknownMethod name count .string)

/-- The items between two positions. -/
def subList (items : List Value) (first last : Int) : Except Fault (List Value) :=
  if first < 0 ∨ (items.length : Int) < last ∨ last < first then .error (.subListRange first last)
  else .ok ((items.take last.toNat).drop first.toNat)

/-- Calls a method of a list. -/
def callList (place : Nat) (name : String) (arguments : List Value) : Run Value := do
  let heap ← Run.heap
  let items := heap.list place
  match name, arguments with
  | "size", [] => return .int items.length
  | "isEmpty", [] => return .bool items.isEmpty
  | "add", [item] => do
    Run.setList place (items ++ [item])
    return .bool true
  | "add", [_, item] => do
    let index ← Run.ofExcept (integerArgument name arguments 0)
    if 0 ≤ index ∧ index ≤ items.length then
      Run.setList place (items.insertIdx index.toNat item)
      return .undefined
    else Run.fault (.elementBounds "add" index items.length)
  | "addAll", [.list other] => do
    Run.setList place (items ++ heap.list other)
    return .bool true
  | "addAll", [_] => Run.fault (.soleArgument "addAll" .list)
  | "get", [_] => do
    let index ← Run.ofExcept (indexArgument name arguments 0 items.length)
    return items.getD index .undefined
  | "set", [_, item] => do
    let index ← Run.ofExcept (indexArgument name arguments 0 items.length)
    Run.setList place (items.set index item)
    return items.getD index .undefined
  | "contains", [wanted] => return .bool (items.any fun item => heap.same item wanted)
  | "indexOf", [wanted] =>
    return positionOrMinusOne (items.findIdx? fun item => heap.same item wanted)
  | "remove", [.int _] => do
    let index ← Run.ofExcept (indexArgument name arguments 0 items.length)
    Run.setList place (items.eraseIdx index)
    return items.getD index .undefined
  | "remove", [wanted] =>
    match items.findIdx? fun item => heap.same item wanted with
    | some index => do
      Run.setList place (items.eraseIdx index)
      return .bool true
    | none => return .bool false
  | "clear", [] => do
    Run.setList place []
    return .undefined
  | "subList", [_, _] => do
    let first ← Run.ofExcept (integerArgument name arguments 0)
    let last ← Run.ofExcept (integerArgument name arguments 1)
    Run.newList (← Run.ofExcept (subList items first last))
  | _, _ => Run.fault (.unknownMethod name arguments.length .list)

/-- The key that a getter names: `getKey` names `key`. -/
def getterKey? (name : String) : Option String :=
  match Text.dropFront? "get".toList name.toList with
  | some (c :: rest) => some (String.ofList (Unicode.lower c ++ rest))
  | _ => none

/-- Makes a map of each entry, with the fields `key` and `value`. -/
def entryMaps : Dict Value → Run (List Value)
  | [] => return []
  | (key, value) :: rest => do
    let entry ← Run.newMap [("key", .string key), ("value", value)]
    return entry :: (← entryMaps rest)

/-- Calls a method of a map. -/
def callMap (place : Nat) (name : String) (arguments : List Value) : Run Value := do
  let heap ← Run.heap
  let entries := heap.map place
  let key := Run.ofExcept (keyArgument heap name arguments)
  match name, arguments with
  | "size", [] => return .int entries.length
  | "isEmpty", [] => return .bool entries.isEmpty
  | "get", [_] => do return (entries.get? (← key)).getD .null
  | "put", [_, value] => do
    let key ← key
    Run.setMap place (entries.insert key value)
    return (entries.get? key).getD .null
  | "putAll", [.map other] => do
    Run.setMap place (entries.insertAll (heap.map other))
    return .undefined
  | "putAll", [_] => Run.fault (.soleArgument "putAll" .map)
  | "containsKey", [_] => do return .bool (entries.contains (← key))
  | "containsValue", [wanted] =>
    return .bool (entries.values.any fun value => heap.same value wanted)
  | "keySet", [] => Run.newList (entries.keys.map .string)
  | "values", [] => Run.newList entries.values
  | "entrySet", [] => do Run.newList (← entryMaps entries)
  | "remove", [_] => do
    let key ← key
    Run.setMap place (entries.erase key)
    return (entries.get? key).getD .null
  | "clear", [] => do
    Run.setMap place []
    return .undefined
  | _, [] =>
    match getterKey? name with
    | some key => return (entries.get? key).getD .null
    | none => Run.fault (.unknownMethod name 0 .map)
  | _, _ => Run.fault (.unknownMethod name arguments.length .map)

/-- Calls a method of a number. -/
def callNumber (target : Value) (name : String) (arguments : List Value) : Except Fault Value :=
  match name, target, arguments with
  | "intValue", .int n, [] | "longValue", .int n, [] => .ok (.int n)
  | "intValue", .float x, [] | "longValue", .float x, [] => .ok (.int (wholePart x))
  | "doubleValue", .int n, [] | "floatValue", .int n, [] => .ok (.float (Float.ofInt n))
  | "doubleValue", .float x, [] | "floatValue", .float x, [] => .ok (.float x)
  | _, _, _ => .error (.unknownMethod name arguments.length .number)

/-- Calls a method of a value that is no group of built-in functions. -/
def callMethod (target : Value) (name : String) (arguments : List Value) : Run Value := do
  if target.isNothing then Run.fault (.methodOfNothing name)
  else
    let heap ← Run.heap
    match name, arguments with
    | "toString", [] => return .string (heap.text target)
    | "toJSON", [] => return target
    | "equals", [other] => return .bool (heap.same target other)
    | _, _ =>
      match target with
      | .string text => do
        match ← Run.ofExcept (callString text.toList name arguments) with
        | .value value => return value
        | .parts parts => Run.newList (parts.map ofChars)
      | .list place => callList place name arguments
      | .map place => callMap place name arguments
      | .int n => Run.ofExcept (callNumber (.int n) name arguments)
      | .float x => Run.ofExcept (callNumber (.float x) name arguments)
      | .bool value =>
        if name = "booleanValue" ∧ arguments.isEmpty then return .bool value
        else Run.fault (.unknownMethod name arguments.length .boolean)
      | other => Run.fault (.unknownMethod name arguments.length other.kind)

end FieldResolver.Template
