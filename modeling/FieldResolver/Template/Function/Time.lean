/-
**`$util.time`: moments and their texts.**
-/

import FieldResolver.Calendar.Pattern
import FieldResolver.Template.Function.Arguments

namespace FieldResolver.Template.Function.Time

open Calendar

/-- A zone argument as seconds east of universal time, which is meant if the argument is missing. -/
def zone (call : Call) (place : Nat) : Except FunctionFault Int :=
  match call.value place with
  | .undefined | .null => .ok 0
  | .string name =>
    let name := Text.trimmed name
    match zone? name with
    | some offset => .ok offset
    | none => .error (.zone name)
  | _ => .error (.argument place .string)

/-- A moment within reach of the calendar. -/
def moment (call : Call) (place : Nat) : Except FunctionFault Int := do
  let millis ← call.millis place
  if firstMillis ≤ millis ∧ millis ≤ lastMillis then .ok millis else .error (.momentRange millis)

/-- The pattern that a text writes. -/
def pattern (text : String) : Except FunctionFault Pattern :=
  (Pattern.parse text.toList).mapError .patternLetter

/-- Writes a moment by a pattern argument and the zone argument behind it. -/
def formatted (call : Call) (millis : Int) (place : Nat) : Result := do
  let text ← call.string place
  let offset ← zone call (place + 1)
  return .value (.string ((← pattern text).format millis offset))

/-- Reads the moment that a text argument writes by a pattern and a zone. -/
def parsed (call : Call) : Result := do
  let text ← call.string 0
  let pattern ← pattern (← call.string 1)
  match pattern.read text.toList (← zone call 2) with
  | .ok millis => .ok (.value (.int millis))
  | .error .mismatch => .error (.unreadDate text)
  | .error .outOfReach => .error (.ambiguousDate text)

/-- Calls a function of the group. -/
def call (now : Int) (name : String) (call : Call) : Result :=
  match name with
  | "nowISO8601" => .ok (.value (.string (isoText now)))
  | "nowEpochSeconds" => .ok (.value (.int (now.fdiv 1000)))
  | "nowEpochMilliSeconds" => .ok (.value (.int now))
  | "nowFormatted" => formatted call now 0
  | "parseISO8601ToEpochMilliSeconds" => do
    let text ← call.string 0
    match ofIso? text.toList with
    | some millis => .ok (.value (.int millis))
    | none => .error (.timestamp text)
  | "epochMilliSecondsToSeconds" => do return .value (.int ((← call.millis 0).tdiv 1000))
  | "epochMilliSecondsToISO8601" => do return .value (.string (isoText (← moment call 0)))
  | "epochMilliSecondsToFormatted" => do formatted call (← moment call 0) 1
  | "parseFormattedToEpochMilliSeconds" => parsed call
  | _ => .error .unknownFunction

end FieldResolver.Template.Function.Time
