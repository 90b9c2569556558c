/-
**What a finished function process means.**

A function process reads its event and prints its answer. A process that ends well answers with its
whole output as JSON, or else with the last line that is not blank. An object with an `errorMessage`
is an error and no answer. Where there is no answer, an error object is looked for among the
messages and then in the output, and failing that their text is the error.
-/

import FieldResolver.Json.Reader
import FieldResolver.Text.Blank

namespace FieldResolver

/-- How a process ended. -/
inductive ProcessEnd where
  | exited (status : Int)
  | signalled
deriving DecidableEq

/-- A process that has ended. -/
structure FinishedProcess where
  ending : ProcessEnd
  output : String := ""
  messages : String := ""
  /-- How long it ran, in milliseconds. -/
  elapsedMs : Nat := 0

/-- Why a function gives no answer. -/
inductive FunctionError where
  /-- The function reported an error. -/
  | reported (message : String) (kind : Option String) (report : Json)
  /-- The process could not be started. -/
  | notStarted (command cause : String)
  /-- The process ended without an answer or a report. -/
  | silent (ending : ProcessEnd) (message messages : String)
  | noHandler (name : String)

namespace FunctionError

/-- The wording of an error. -/
def message : FunctionError → String
  | .reported message _ _ => message
  | .notStarted command cause => s!"failed to spawn '{command}': {cause}"
  | .silent _ message _ => message
  | .noHandler name => s!"no handler registered under '{name}'"

/-- The kind of errors that do not name their own. -/
def unhandled : String := "Lambda:Unhandled"

/-- The kind that is reported of an error. -/
def kind : FunctionError → String
  | .reported _ (some kind) _ => kind
  | _ => unhandled

/-- The exit status in JSON; a process that a signal ended has none. -/
def statusJson : ProcessEnd → Json
  | .exited status => .int status
  | .signalled => .null

/-- What is known of an error. -/
def detail : FunctionError → Json
  | .reported _ _ report => report
  | .silent ending message messages =>
    .object
      [("errorMessage", .string message), ("exitCode", statusJson ending),
        ("stderr", .string messages)]
  | error => .object [("errorMessage", .string error.message)]

/-- The error that an object with an `errorMessage` reports. -/
def ofErrorMessage? (value : Json) : Option FunctionError := do
  let message ← (← value.field? "errorMessage").string?
  some (.reported message none value)

/-- The error that an object with a `message`, and perhaps an `errorType`, reports. -/
def ofMessage? (value : Json) : Option FunctionError := do
  let message ← (← value.field? "message").string?
  some (.reported message ((value.field? "errorType").bind Json.string?) value)

end FunctionError

namespace FinishedProcess

/-- Whether the process ended well. -/
def succeeded (process : FinishedProcess) : Bool := process.ending = .exited 0

/-- The last line that is not blank, without the white space around it. -/
def lastLine? (text : String) : Option String :=
  ((text.toList.splitOn '\n').map fun line => String.ofList (Text.trim line)).reverse.find?
    fun line => line != ""

/-- A text as JSON, or else its last line that is not blank. -/
def json? (text : String) : Option Json :=
  Json.parse? text <|> (lastLine? text).bind Json.parse?

/-- The error that a text reports. -/
def reported? (text : String) : Option FunctionError := do
  let value ← json? text
  FunctionError.ofErrorMessage? value <|> FunctionError.ofMessage? value

/-- The error of a process that neither answers nor reports one. -/
def silence (ending : ProcessEnd) (output messages : String) : FunctionError :=
  let message :=
    if messages ≠ "" then messages
    else if output ≠ "" then output
    else match ending with
      | .exited 0 => "function returned no output"
      | .exited status => s!"function exited with status {status}"
      | .signalled => "function was terminated by a signal"
  .silent ending message messages

/-- The error of a process that does not answer. -/
def failure (process : FinishedProcess) : FunctionError :=
  let output := Text.trimmed process.output
  let messages := Text.trimmed process.messages
  (reported? messages <|> reported? output).getD (silence process.ending output messages)

/-- The answer of a process. -/
def result (process : FinishedProcess) : Except FunctionError Json :=
  match if process.succeeded then json? (Text.trimmed process.output) else none with
  | some value =>
    match FunctionError.ofErrorMessage? value with
    | some error => .error error
    | none => .ok value
  | none => .error process.failure

end FinishedProcess

/-- A process to be started for a call. -/
structure ProcessLaunch where
  command : String
  arguments : List String
  directory : Option String
  /-- The variables of the process; of a repeated name the last one counts. -/
  environment : Dict String
  /-- What the process reads. -/
  input : String

namespace ProcessLaunch

/-- The time limit that a process is told, in seconds. -/
def limitSeconds (timeoutMs : Nat) : Nat := max (timeoutMs / 1000) 1

/-- The variables of a process: its own, and behind them what every function is told. -/
def environmentFor (own : Dict String) (functionName : String) (timeoutMs : Nat) : Dict String :=
  (own.insert "AWS_LAMBDA_FUNCTION_NAME" functionName).insert "AWS_LAMBDA_FUNCTION_TIMEOUT"
    (toString (limitSeconds timeoutMs))

end ProcessLaunch

/-- Starts processes and waits for their end, or says why one cannot be started. -/
abbrev Launcher := ProcessLaunch → Except String FinishedProcess

/-- How long a process runs, in milliseconds; one that cannot be started takes no time. -/
def ProcessLaunch.elapsedMs (launch : ProcessLaunch) (launcher : Launcher) : Nat :=
  match launcher launch with
  | .error _ => 0
  | .ok process => process.elapsedMs

/-- The answer of a function that is a process. -/
def ProcessLaunch.result (launch : ProcessLaunch) (launcher : Launcher) :
    Except FunctionError Json :=
  match launcher launch with
  | .error cause => .error (.notStarted launch.command cause)
  | .ok process => process.result

end FieldResolver
