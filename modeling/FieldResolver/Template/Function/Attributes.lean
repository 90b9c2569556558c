/-
**`$util.dynamodb`: attribute values of template values.**

Every function has a twin whose name ends in `Json` and which gives the text of the attribute value.
-/

import FieldResolver.Attribute.Value
import FieldResolver.Template.Function.Arguments
import FieldResolver.Text.Search

namespace FieldResolver.Template.Function.Attributes

open Attribute

/-- A set attribute of the texts that the members of a list have. -/
def setOf (type : String) (member : Json → Option String) : Json → Except FunctionFault Json
  | .array items => do
    let texts ← items.mapM fun item =>
      match member item with
      | some text => Except.ok (Json.string text)
      | none => .error (.setMember item)
    return tagged type (.array texts)
  | other => .error (.unexpected .list other)

/-- The text of a number. -/
def numberText? : Json → Option String
  | .number number => some (numberText number)
  | _ => none

/-- The attribute value, or the attribute values of a map, that a function makes. -/
def valueOf (name : String) (input : Json) : Except FunctionFault Json :=
  match name, input with
  | "toDynamoDB", value => .ok (marshal value)
  | "toString", .string text => .ok (marshal (.string text))
  | "toString", other => .error (.unexpected .string other)
  | "toNumber", .number number => .ok (marshal (.number number))
  | "toNumber", other => .error (.unexpected .number other)
  | "toBoolean", .bool value => .ok (marshal (.bool value))
  | "toBoolean", other => .error (.unexpected .boolean other)
  | "toNull", _ => .ok (marshal .null)
  | "toList", .array items => .ok (marshal (.array items))
  | "toList", other => .error (.unexpected .list other)
  | "toMap", .object fields => .ok (marshal (.object fields))
  | "toMap", other => .error (.unexpected .map other)
  | "toMapValues", .object fields => .ok (.object (marshalFields fields))
  | "toMapValues", other => .error (.unexpected .map other)
  | "toStringSet", value => setOf "SS" Json.string? value
  | "toNumberSet", value => setOf "NS" numberText? value
  | _, _ => .error .unknownFunction

/-- A function's name without the ending `Json`, and whether it had one. -/
def splitName (name : String) : String × Bool :=
  match Text.dropFront? "nosJ".toList name.toList.reverse with
  | some rest => (String.ofList rest.reverse, true)
  | none => (name, false)

/-- Calls a function of the group. -/
def call (name : String) (call : Call) : Result := do
  let (base, asText) := splitName name
  let value ← valueOf base (call.json 0)
  return if asText then .value (.string value.render) else .json value

end FieldResolver.Template.Function.Attributes
