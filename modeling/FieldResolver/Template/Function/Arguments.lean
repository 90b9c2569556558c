/-
**Arguments of built-in functions.**

A missing argument is undefined. Each reader refuses what it does not expect, with the argument's
place.
-/

import FieldResolver.Template.Run
import FieldResolver.Template.Tree

namespace FieldResolver.Template.Function

/-- What a built-in function is called with: the heap and the arguments. -/
structure Call where
  heap : Heap
  arguments : List Value

namespace Call

/-- An argument; undefined if it is missing. -/
def value (call : Call) (place : Nat) : Value := call.arguments.getD place .undefined

/-- The JSON form of an argument. -/
def json (call : Call) (place : Nat) : Json := call.heap.json (call.value place)

/-- The text of an argument; nothing has no text. -/
def text? (call : Call) (place : Nat) : Option String :=
  if (call.value place).isNothing then none else some (call.heap.text (call.value place))

/-- The text that an argument contributes to the output. -/
def rendered (call : Call) (place : Nat) : String := call.heap.rendered (call.value place)

/-- The text of an argument that must not be nothing. -/
def text (call : Call) (place : Nat) : Except FunctionFault String :=
  match call.text? place with
  | some text => .ok text
  | none => .error (.nullArgument place)

/-- The text of a string is the string. -/
theorem text_string (heap : Heap) (text : String) (more : List Value) :
    Call.text ⟨heap, .string text :: more⟩ 0 = .ok text :=
  congrArg Except.ok String.ofList_toList

/-- A string argument. -/
def string (call : Call) (place : Nat) : Except FunctionFault String :=
  match call.value place with
  | .string text => .ok text
  | _ => .error (.argument place .string)

/-- The items of a list argument. -/
def list (call : Call) (place : Nat) : Except FunctionFault (List Value) :=
  match call.value place with
  | .list id => .ok (call.heap.list id)
  | _ => .error (.argument place .list)

/-- The entries of a map argument. -/
def map (call : Call) (place : Nat) : Except FunctionFault (Dict Value) :=
  match call.value place with
  | .map id => .ok (call.heap.map id)
  | _ => .error (.argument place .map)

/-- A number argument. -/
def number (call : Call) (place : Nat) : Except FunctionFault Value :=
  match call.value place with
  | .int n => .ok (.int n)
  | .float x => .ok (.float x)
  | _ => .error (.argument place .number)

/-- Milliseconds: a number without its fraction. -/
def millis (call : Call) (place : Nat) : Except FunctionFault Int :=
  match call.value place with
  | .int n => .ok n
  | .float x => .ok (wholePart x)
  | _ => .error (.argument place .number)

end Call

/-- What a built-in function gives: a value that needs no room, or contents of a new container. -/
inductive Outcome where
  | value (value : Value)
  | list (items : List Value)
  | map (entries : Dict Value)
  | json (json : Json)

/-- The value of an outcome. -/
def Outcome.place : Outcome → Run Value
  | .value result => pure result
  | .list items => Run.newList items
  | .map entries => Run.newMap entries
  | .json document => Run.newJson document

/-- A built-in function that only computes. -/
abbrev Result := Except FunctionFault Outcome

end FieldResolver.Template.Function
