/-
**Running templates: state and ways to end.**

A run changes a state: the heap, the variables, the errors recorded so far and the text written so
far. A step either gives a value or ends early with an interrupt, which may be an error that the
template raises.
-/

import FieldResolver.Json.Record
import FieldResolver.Template.Fault
import FieldResolver.Template.Heap

namespace FieldResolver.Template

/-- An error that a template raises or records. -/
structure Raised where
  message : String
  kind : Option String := none
  data : Json := .null
  info : Json := .null

namespace Raised

/-- Reads an error; `errorType`, `data` and `errorInfo` may be missing. -/
def ofJson? (value : Json) : Option Raised := do
  let record ← Json.Record.ofJson? ["message", "errorType", "data", "errorInfo"] value
  let message ← record.required "message" Json.string?
  let kind ← record.optional "errorType" Json.string?
  let data ← record.defaulted "data" .null Json.any?
  let info ← record.defaulted "errorInfo" .null Json.any?
  some { message, kind, data, info }

end Raised

/-- What an evaluation takes from its surroundings. -/
structure Environment where
  /-- The time, in milliseconds since the start of 1970. -/
  now : Int
  /-- How the caller was authorized, in words. -/
  authorization : String
  /-- A fresh identifier for each number. -/
  identifier : Nat → String

/-- The state of an evaluation. -/
structure State where
  heap : Heap := {}
  bindings : Dict Value := []
  /-- The errors recorded so far, the latest last. -/
  recorded : List Raised := []
  output : String := ""
  /-- How many identifiers have been handed out. -/
  identifiers : Nat := 0

/-- The ways in which a step ends early. -/
inductive Interrupt where
  | breakLoop
  | stop
  | returned (value : Value)
  | raised (error : Raised)
  | fault (cause : Fault)

/-- A step of an evaluation. -/
abbrev Run (α : Type) := EStateM Interrupt State α

namespace Run

/-- Stops with a fault. -/
def fault {α : Type} (cause : Fault) : Run α := throw (.fault cause)

/-- Goes on with a value or stops with a fault. -/
def ofExcept {α : Type} : Except Fault α → Run α
  | .ok value => pure value
  | .error cause => fault cause

/-- The heap. -/
def heap : Run Heap := do return (← get).heap

/-- Makes a list. -/
def newList (items : List Value) : Run Value :=
  modifyGet fun state =>
    let (value, heap) := state.heap.allocList items
    (value, { state with heap })

/-- Makes a map. -/
def newMap (entries : Dict Value) : Run Value :=
  modifyGet fun state =>
    let (value, heap) := state.heap.allocMap entries
    (value, { state with heap })

/-- Makes the value of a JSON value. -/
def newJson (json : Json) : Run Value :=
  modifyGet fun state =>
    let (value, heap) := state.heap.ofJson json
    (value, { state with heap })

/-- Replaces the items of a list. -/
def setList (place : Nat) (items : List Value) : Run Unit :=
  modify fun state => { state with heap := state.heap.setList place items }

/-- Replaces the entries of a map. -/
def setMap (place : Nat) (entries : Dict Value) : Run Unit :=
  modify fun state => { state with heap := state.heap.setMap place entries }

/-- Writes text to the output. -/
def write (text : String) : Run Unit :=
  modify fun state => { state with output := state.output ++ text }

/-- Binds a variable. -/
def setVariable (name : String) (value : Value) : Run Unit :=
  modify fun state => { state with bindings := state.bindings.insert name value }

/-- Unbinds a variable and gives what it was bound to. -/
def takeVariable (name : String) : Run (Option Value) :=
  modifyGet fun state =>
    (state.bindings.get? name, { state with bindings := state.bindings.erase name })

/-- Binds a variable as it was, or unbinds it. -/
def restoreVariable (name : String) : Option Value → Run Unit
  | some value => setVariable name value
  | none => modify fun state => { state with bindings := state.bindings.erase name }

/-- The text that a step writes, which does not go to the output. -/
def captured (step : Run Unit) : Run String := fun state =>
  match step { state with output := "" } with
  | .ok _ after => .ok after.output { after with output := state.output }
  | .error interrupt after => .error interrupt { after with output := state.output }

end Run

end FieldResolver.Template
