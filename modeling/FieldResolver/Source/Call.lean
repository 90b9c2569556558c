/-
**Calls of data sources.**

A backend serves the data sources of its kind. What a call comes to and how long it takes is a
`Timed CallResult`; only functions take time. Calls change the tables, and every call of a handler
is counted and noted.
-/

import FieldResolver.Api.DataSource
import FieldResolver.Source.FunctionProcess
import FieldResolver.Source.Relational
import FieldResolver.Source.Web
import FieldResolver.Table.Store

namespace FieldResolver

/-- A failure as pipelines see it. -/
structure CallFailure where
  message : String
  kind : String
  detail : Json := .null

/-- Why a backend gives no answer. -/
inductive CallError where
  | function (error : FunctionError)
  | table (failure : Table.Failure)
  | relational (failure : Relational.Failure)
  | web (failure : Web.Failure)
  /-- The backend was given a data source of another kind. -/
  | unsupported (backend : String) (kind : SourceKind) (source : String)

namespace CallError

/-- The wording of an error. -/
def message : CallError → String
  | .function error => error.message
  | .table failure => failure.message
  | .relational failure => failure.message
  | .web failure => failure.message
  | .unsupported backend kind source =>
    s!"{backend} backend cannot serve {kind.name} data source '{source}'"

/-- The kind of data sources that are not set up well. -/
def misconfigured : String := "DataSourceMisconfigured"

/-- The kind that is reported of an error. -/
def kind : CallError → String
  | .function error => error.kind
  | .table failure => failure.kind
  | .relational failure => failure.kind
  | .web failure => failure.kind
  | .unsupported .. => misconfigured

/-- What is known of an error. -/
def detail : CallError → Json
  | .function error => error.detail
  | error => .object [("message", .string error.message), ("errorType", .string error.kind)]

/-- An error as pipelines see it. -/
def failure (error : CallError) : CallFailure :=
  { message := error.message, kind := error.kind, detail := error.detail }

end CallError

/-- What a call comes to. -/
inductive CallResult where
  | value (value : Json)
  | error (cause : CallError)
  /-- The backend broke down, perhaps with a text. -/
  | crashed (text : Option String)

/-- Something that is there after a while. -/
structure Timed (α : Type) where
  /-- How long it takes, in milliseconds. -/
  delay : Nat := 0
  content : α

/-- What a handler's call comes to. -/
inductive HandlerResult where
  | value (value : Json)
  | error (message : String) (kind : Option String)
  | crashed (text : Option String)

/-- A registered handler: what it makes of an event, given how often it was called with this call
counted. -/
abbrev Handler := Nat → Json → Timed HandlerResult

/-- The result of a handler as the result of a call. -/
def HandlerResult.callResult : HandlerResult → CallResult
  | .value answer => .value answer
  | .error message kind =>
    let detail := Json.object
      [("errorMessage", .string message), ("errorType", Json.ofOption (kind.map .string))]
    .error (.function (.reported message kind detail))
  | .crashed text => .crashed text

/-- What backends use. -/
structure Services where
  handlers : Dict Handler := []
  launcher : Launcher
  transport : Web.Transport
  database : Relational.Database

/-- A call of a handler. -/
structure HandlerCall where
  handler : String
  function : String
  event : Json

/-- What calls leave behind. -/
structure ServiceState where
  store : Table.Store := []
  /-- How often each handler was called. -/
  counts : Dict Nat := []
  /-- The calls of handlers, in order. -/
  log : List HandlerCall := []

/-- The backends. -/
inductive Backend where
  | function
  | table
  | web
  | relational
  /-- Answers with the request. -/
  | echo
  | custom (serve : DataSource → Json → Timed CallResult)

namespace Backend

/-- The backend of a kind. -/
def ofKind : SourceKind → Backend
  | .function => .function
  | .kvTable => .table
  | .http | .search => .web
  | .relational => .relational
  | .none => .echo

/-- What a request carries for a function: the payload of an invocation, or else all of it. -/
def payload (request : Json) : Json :=
  match request.field? "operation", request.field? "payload" with
  | some (.string "Invoke"), some payload | some (.string "BatchInvoke"), some payload => payload
  | _, _ => request

/-- The answer of a backend that was given a data source of another kind. -/
def unsupported (backend : String) (source : DataSource) : Timed CallResult :=
  { content := .error (.unsupported backend source.kind source.name) }

/-- An answer that is there at once. -/
def atOnce {ε : Type} (error : ε → CallError) : Except ε Json → Timed CallResult
  | .ok value => { content := .value value }
  | .error cause => { content := .error (error cause) }

/-- Calls a function. -/
def callFunction (services : Services) (functionName : String) (target : FunctionTarget)
    (timeoutMs : Nat) (event : Json) (state : ServiceState) : Timed CallResult × ServiceState :=
  match target with
  | .registered name =>
    match services.handlers.get? name with
    | none => ({ content := .error (.function (.noHandler name)) }, state)
    | some handler =>
      let count := (state.counts.get? name).getD 0 + 1
      let result := handler count event
      ({ delay := result.delay, content := result.content.callResult },
        { state with
          counts := state.counts.insert name count
          log := state.log ++ [{ handler := name, function := functionName, event }] })
  | .process command arguments directory environment =>
    let launch : ProcessLaunch :=
      { command, arguments, directory
        environment := ProcessLaunch.environmentFor environment functionName timeoutMs
        input := event.render ++ "\n" }
    ({ atOnce .function (launch.result services.launcher) with
        delay := launch.elapsedMs services.launcher },
      state)

/-- Serves a request to a data source that may take the given time. -/
def serve (services : Services) (backend : Backend) (source : DataSource) (timeoutMs : Nat)
    (request : Json) (state : ServiceState) : Timed CallResult × ServiceState :=
  match backend, source.config with
  | .function, .function functionName target =>
    callFunction services functionName target timeoutMs (payload request) state
  | .function, _ => (unsupported "function" source, state)
  | .table, .kvTable name =>
    let (result, store) := state.store.execute name request
    (atOnce .table result, { state with store })
  | .table, _ => (unsupported "kv_table" source, state)
  | .web, .http endpoint => (atOnce .web (Web.execute services.transport endpoint request), state)
  | .web, .search endpoint => (atOnce .web (Web.search services.transport endpoint request), state)
  | .web, _ => (unsupported "http" source, state)
  | .relational, .relational address =>
    (atOnce .relational (Relational.execute services.database address request), state)
  | .relational, _ => (unsupported "relational" source, state)
  | .echo, _ => ({ content := .value ((request.field? "payload").getD request) }, state)
  | .custom respond, _ => (respond source request, state)

end Backend

end FieldResolver
