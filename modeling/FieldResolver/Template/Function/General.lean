/-
**The functions of `$util` itself.**

Raising and recording errors and handing out identifiers change the run; all others only compute.
-/

import FieldResolver.Json.Reader
import FieldResolver.Regex.Matching
import FieldResolver.Template.Function.Arguments
import FieldResolver.Text.Encoding

namespace FieldResolver.Template.Function.General

/-- The kind of error of a refused caller. -/
def unauthorizedKind : String := "Unauthorized"

/-- The kind of error of a failed validation that names none. -/
def validationKind : String := "CustomTemplateException"

/-- The error of a message, a kind, data and further information. -/
def raisedError (call : Call) : Raised where
  message := call.rendered 0
  kind := call.text? 1
  data := call.json 2
  info := call.json 3

/-- The error of a failed validation. -/
def validationError (call : Call) : Raised where
  message := call.rendered 1
  kind := some ((call.text? 2).getD validationKind)
  data := call.json 3

/-- Whether a value is nothing or a string that a test holds of. -/
def nothingOr (test : String → Bool) (value : Value) : Bool :=
  value.isNothing || value.string?.any test

/-- Whether a string has only blanks. -/
def isBlankText (text : String) : Bool := text.toList.all Text.isBlank

/-- The first argument, or the second where the first fails. -/
def orDefault (call : Call) (fails : Value → Bool) : Value :=
  if fails (call.value 0) then call.value 1 else call.value 0

/-- The name of a value's type. -/
def typeName : Value → String
  | .undefined | .null => "Null"
  | .bool _ => "Boolean"
  | .int _ | .float _ => "Number"
  | .string _ => "String"
  | .list _ => "List"
  | .map _ => "Map"
  | .functions _ => "Object"

/-- The text that Base64 text stands for. -/
def base64Decoded (text : String) : Except FunctionFault String :=
  match Text.Base64.decodeBytes? text.toList with
  | none => .error .notBase64
  | some bytes =>
    match Text.ofBytes? bytes with
    | some decoded => .ok decoded
    | none => .error .notUtf8

/-- Whether a whole text matches an expression. -/
def matchesWhole (pattern text : String) : Except FunctionFault Bool := do
  let regex ← (Regex.ofText (Regex.wholeText pattern.toList)).mapError .regex
  return regex.isMatch text.toList

/-- A function that only computes; nothing for other names. -/
def compute? (name : String) (call : Call) : Option Result :=
  let first := call.value 0
  let value (value : Value) : Option Result := some (.ok (.value value))
  let string (text : Except FunctionFault String) : Option Result :=
    some (text.map fun text => .value (.string text))
  match name with
  | "qr" | "quiet" => value (.string "")
  | "toJson" => value (.string (call.json 0).render)
  | "parseJson" => some do return .json (← (Json.parse (← call.text 0)).mapError .invalidJson)
  | "escapeJavaScript" =>
    string do return String.ofList (Text.ScriptString.escape (← call.text 0).toList)
  | "urlEncode" => string do return Text.formEncode (← call.text 0)
  | "urlDecode" =>
    string do
      match Text.formDecode? (← call.text 0) with
      | some decoded => .ok decoded
      | none => .error .notUtf8
  | "base64Encode" => string do return Text.Base64.encode (← call.text 0)
  | "base64Decode" => string do base64Decoded (← call.text 0)
  | "isNull" => value (.bool first.isNothing)
  | "isNullOrEmpty" => value (.bool (nothingOr String.isEmpty first))
  | "isNullOrBlank" => value (.bool (nothingOr isBlankText first))
  | "defaultIfNull" => value (orDefault call Value.isNothing)
  | "defaultIfNullOrEmpty" => value (orDefault call (nothingOr String.isEmpty))
  | "defaultIfNullOrBlank" => value (orDefault call (nothingOr isBlankText))
  | "isString" => value (.bool (first.kind = .string))
  | "isNumber" => value (.bool (first.kind = .number))
  | "isBoolean" => value (.bool (first.kind = .boolean))
  | "isList" => value (.bool (first.kind = .list))
  | "isMap" => value (.bool (first.kind = .map))
  | "typeOf" => value (.string (typeName first))
  | "matches" =>
    some do
      let pattern ← call.text 0
      return .value (.bool (← matchesWhole pattern (← call.text 1)))
  | _ => none

/-- Records an error. -/
def record (error : Raised) : Run Value := do
  modify fun state => { state with recorded := state.recorded ++ [error] }
  return .string ""

/-- Hands out an identifier. -/
def newIdentifier (environment : Environment) : Run Value :=
  modifyGet fun state =>
    (.string (environment.identifier state.identifiers),
      { state with identifiers := state.identifiers + 1 })

/-- Calls a function of the group. -/
def call (environment : Environment) (name : String) (call : Call) : Run Value :=
  match name with
  | "error" => throw (.raised (raisedError call))
  | "unauthorized" =>
    throw (.raised { message := "Unauthorized", kind := some unauthorizedKind })
  | "validate" =>
    if (call.value 0).isTruthy then pure (.string "") else throw (.raised (validationError call))
  | "appendError" => record (raisedError call)
  | "autoId" => newIdentifier environment
  | "authType" => pure (.string environment.authorization)
  | _ =>
    match compute? name call with
    | some (.ok outcome) => outcome.place
    | some (.error cause) => Run.fault (.function .util name cause)
    | none => Run.fault (.unknownUtility name call.arguments.length)

end FieldResolver.Template.Function.General
