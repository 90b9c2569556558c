/-
**Sending requests to data sources.**

A dispatcher finds the data source and the backend of a request and waits for the first of three
things: the backend's result, the end of the time that the data source may take, and the caller's
cancellation. `settle` decides between the first two and `withCancellation` brings in the third.

* `settle_of_le`, `settle_of_lt`: a result that comes in time is the reply, a later one is not;
* `withCancellation_of_lt`, `withCancellation_of_le`: only an earlier cancellation counts.
-/

import FieldResolver.Api.Bound
import FieldResolver.Source.Call

namespace FieldResolver

/-- What the caller of a data source gets. -/
inductive Reply where
  | value (value : Json)
  | failure (cause : CallFailure)
  | cancelled

/-- Sends requests to data sources. -/
structure Dispatcher where
  sources : SourceRegistry
  backend? : SourceKind → Option Backend := fun kind => some (.ofKind kind)
  services : Services
  /-- How long a call may take if the data source does not say it, in milliseconds. -/
  defaultTimeoutMs : Nat := 30000
  /-- How long a batch waits for more requests, in milliseconds. -/
  batchWindowMs : Nat := 1

namespace Dispatcher

/-- The failure of a request to a data source that does not exist. -/
def notRegistered (name : String) : CallFailure :=
  { message := s!"data source '{name}' is not registered", kind := "DataSourceNotFound" }

/-- The failure of a request to a data source whose kind has no backend. -/
def noBackend (source : DataSource) : CallFailure :=
  { message := s!"no backend for {source.kind.name} data source '{source.name}'"
    kind := CallError.misconfigured }

/-- The failure of a call that took too long. -/
def timedOut (source : DataSource) (timeoutMs : Nat) : CallFailure :=
  { message := s!"Execution timed out after {timeoutMs} ms calling data source '{source.name}'"
    kind := "ExecutionTimeout" }

/-- The failure of a call whose backend broke down. -/
def brokenDown (kind : SourceKind) (text : Option String) : CallFailure :=
  let message := text.getD "backend panicked"
  let errorType := match kind with
    | .function => FunctionError.unhandled
    | _ => "InternalFailure"
  { message, kind := errorType
    detail := .object [("errorMessage", .string message), ("errorType", .string errorType)] }

/-- The reply that a result gives. -/
def replyOf (source : DataSource) : CallResult → Reply
  | .value value => .value value
  | .error cause => .failure cause.failure
  | .crashed text => .failure (brokenDown source.kind text)

/-- The reply to a call: its result, or a failure once the time is over. -/
def settle (source : DataSource) (timeoutMs : Nat) (result : Timed CallResult) : Timed Reply :=
  if result.delay ≤ timeoutMs then
    { delay := result.delay, content := replyOf source result.content }
  else { delay := timeoutMs, content := .failure (timedOut source timeoutMs) }

/-- The reply to a caller who gives up after a time. -/
def withCancellation (cancelAfter : Option Nat) (reply : Timed Reply) : Timed Reply :=
  match cancelAfter with
  | some ms => if ms < reply.delay then { delay := ms, content := .cancelled } else reply
  | none => reply

/-- How long a call of a data source may take. -/
def timeoutOf (dispatcher : Dispatcher) (source : DataSource) : Nat :=
  source.timeoutMs.getD dispatcher.defaultTimeoutMs

/-- Sends a request to a data source. A caller who has given up already calls none. -/
def invoke (dispatcher : Dispatcher) (name : String) (request : Json) (cancelAfter : Option Nat)
    (state : ServiceState) : Timed Reply × ServiceState :=
  match dispatcher.sources.find? name with
  | none => ({ content := .failure (notRegistered name) }, state)
  | some source =>
    match dispatcher.backend? source.kind with
    | none => ({ content := .failure (noBackend source) }, state)
    | some backend =>
      if cancelAfter = some 0 then ({ content := .cancelled }, state)
      else
        let timeoutMs := dispatcher.timeoutOf source
        let (result, state) :=
          backend.serve dispatcher.services source timeoutMs request state
        (withCancellation cancelAfter (settle source timeoutMs result), state)

/-- Whether a data source of a name is a function. -/
def isFunction (dispatcher : Dispatcher) (name : String) : Bool :=
  (dispatcher.sources.find? name).any fun source => source.kind == .function

section

variable {source : DataSource} {timeoutMs : Nat} {result : Timed CallResult} {reply : Timed Reply}

/-- A result that comes in time is the reply. -/
theorem settle_of_le (inTime : result.delay ≤ timeoutMs) :
    settle source timeoutMs result =
      { delay := result.delay, content := replyOf source result.content } :=
  if_pos inTime

/-- A result that comes too late is not. -/
theorem settle_of_lt (late : timeoutMs < result.delay) :
    settle source timeoutMs result =
      { delay := timeoutMs, content := .failure (timedOut source timeoutMs) } :=
  if_neg (Nat.not_le.mpr late)

/-- A call ends by the end of its time. -/
theorem settle_delay : (settle source timeoutMs result).delay = min result.delay timeoutMs := by
  unfold settle
  split <;> simp only <;> omega

/-- An earlier cancellation counts. -/
theorem withCancellation_of_lt {ms : Nat} (earlier : ms < reply.delay) :
    withCancellation (some ms) reply = { delay := ms, content := .cancelled } :=
  if_pos earlier

/-- A later cancellation does not count. -/
theorem withCancellation_of_le {ms : Nat} (later : reply.delay ≤ ms) :
    withCancellation (some ms) reply = reply :=
  if_neg (Nat.not_lt.mpr later)

end

end Dispatcher

end FieldResolver
