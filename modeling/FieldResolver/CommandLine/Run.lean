/-
**Running commands.**

A run reads files, then its input, and gives a text and an exit status. How files are read is a
parameter, as the files that a definition names are known only once it has been read.

* `resolve` binds the definition in a file and resolves a field of it;
* `render` evaluates the template in a file.
-/

import FieldResolver.Api.Bind
import FieldResolver.CommandLine.Help
import FieldResolver.Resolution.Session

namespace FieldResolver.CommandLine

/-- Why a command fails. -/
inductive Failure where
  | usage
  | unreadableApi (path cause : String)
  | invalidApi (path cause : String)
  | unbound (cause : String)
  | invalidInput (cause : String)
  | invalidRequest
  | unresolved (cause : String)
  | unreadableTemplate (path cause : String)
  | invalidContext
deriving DecidableEq

namespace Failure

/-- What the program was doing when it failed; an error of usage has no such words. -/
def summary? : Failure → Option String
  | .usage => none
  | .unreadableApi .. => some "failed to read api file"
  | .invalidApi .. => some "failed to parse api file"
  | .unbound _ => some "failed to bind api"
  | .invalidInput _ => some "failed to parse JSON from stdin"
  | .invalidRequest => some "failed to parse field request from stdin"
  | .unresolved _ => some "field resolution failed"
  | .unreadableTemplate .. => some "failed to read template file"
  | .invalidContext => some "failed to parse context from stdin"

/-- The details of a failure, the nearest first. -/
def details : Failure → List String
  | .usage => ["unexpected or missing argument"]
  | .unreadableApi path cause | .invalidApi path cause | .unreadableTemplate path cause =>
    [path, cause]
  | .unbound cause | .invalidInput cause | .unresolved cause => [cause]
  | .invalidRequest => ["not a field request"]
  | .invalidContext => ["not a context"]

/-- The wording of a failure. -/
def message (failure : Failure) : String :=
  String.intercalate ": " (failure.summary?.toList ++ failure.details)

/-- The exit status of a failure. -/
def exitStatus : Failure → Nat
  | .usage => 2
  | _ => 1

end Failure

/-- What commands take from their surroundings. -/
structure Setting (m : Type → Type) where
  /-- The text of a file, or why there is none. -/
  contentOf : String → m (Except String String)
  /-- The input of the program. -/
  input : m String
  surroundings : Template.Surroundings
  services : Services

/-- An input as JSON; a blank one is an empty object. -/
def inputJson (text : String) : Except Failure Json :=
  if (Text.trimmed text).isEmpty then .ok (.object [])
  else (Json.parse text).mapError .invalidInput

/-- The API of a definition, given the contents of the files that it names. -/
def boundApi (definition : Definition) (directory : String)
    (contents : List (String × Except String String)) : Except Failure Api :=
  let content := fun path => (contents.lookup path).getD (.error "no such file")
  (definition.bind (Definition.loaderBelow directory content)).mapError fun cause =>
    .unbound cause.message

/-- The request for a field that an input makes. -/
def requestOf (typeName field : String) (fullRequest : Bool) (input : Json) :
    Except Failure FieldRequest :=
  if fullRequest then
    match FieldRequest.ofJson? input with
    | some request =>
      .ok { request with info := { request.info with parentType := typeName, field } }
    | none => .error .invalidRequest
  else .ok { arguments := input, info := { parentType := typeName, field } }

/-- The dispatcher of an API. -/
def dispatcherOf (services : Services) (api : Api) : Dispatcher :=
  match api.defaultTimeoutMs with
  | some defaultTimeoutMs => { sources := api.sources, services, defaultTimeoutMs }
  | none => { sources := api.sources, services }

/-- The result of a request to an API. -/
def resolved (surroundings : Template.Surroundings) (services : Services) (api : Api)
    (request : FieldRequest) : Except Failure FieldResult :=
  let session : Session := { dispatcher := dispatcherOf services api, surroundings }
  (session.resolve api request).1.mapError fun cause => .unresolved cause.message

/-- The JSON form of an error that a template raised or recorded. -/
def raisedFields (error : Template.Raised) : Dict Json :=
  [("message", .string error.message), ("errorType", Json.ofOption (error.kind.map .string)),
    ("data", error.data), ("errorInfo", error.info)]

/-- The JSON form of an outcome. -/
def outcomeJson : Template.Outcome → Json
  | .rendered result =>
    .object
      [("outcome", .string "rendered"), ("value", result.value),
        ("appendedErrors", .array (result.recorded.map fun error => .object (raisedFields error))),
        ("returned", .bool result.returned)]
  | .raised error => .object (("outcome", .string "raised") :: raisedFields error)
  | .failed (.malformed position text) =>
    .object
      [("outcome", .string "failed"), ("kind", .string "compile"),
        ("line", .int position.line), ("column", .int position.column),
        ("message", .string text)]
  | .failed (.runtime text) =>
    .object
      [("outcome", .string "failed"), ("kind", .string "runtime"), ("message", .string text)]

/-- The context that an input describes: a request with the state of a stage. -/
def contextOf? (input : Json) : Option Context := do
  let record ← Json.Record.ofObject? [] input
  let request ← FieldRequest.ofJson? input
  let result ← record.defaulted "result" .null Json.any?
  let previous ← record.defaulted "prev" .null Json.any?
  let stash ← record.defaulted "stash" [] Json.fields?
  some { Context.ofRequest request with result, previous, stash }

/-- What rendering a template in a context gives. -/
def rendered (surroundings : Template.Surroundings) (source : String) (context : Context) : Json :=
  let (outcome, context, _) := Template.Evaluator.evaluate {} surroundings source context
  .object [("outcome", outcomeJson outcome), ("stash", .object context.stash)]

/-- A value as it is printed. -/
def printed (value : Json) : String := value.renderIndented ++ "\n"

section

variable {m : Type → Type} [Monad m] (setting : Setting m)

/-- The files that the templates of a definition are in, with their contents. -/
def templateContents (directory : String) (definition : Definition) :
    m (List (String × Except String String)) :=
  definition.templateFiles.mapM fun file => do
    let path := Location.template directory file
    return (path, ← setting.contentOf path)

/-- Resolves a field of the API in a file. -/
def resolve (path typeName field : String) (fullRequest : Bool) : ExceptT Failure m String := do
  let text ← match ← setting.contentOf path with
    | .ok text => pure text
    | .error cause => throw (.unreadableApi path cause)
  let definition ← match Definition.ofText text with
    | .ok definition => pure definition
    | .error cause => throw (.invalidApi path cause.message)
  let directory := Location.templates path definition.templatesLocation
  let contents ← (templateContents setting directory definition : m _)
  let api ← boundApi definition directory contents
  let input ← inputJson (← setting.input)
  let request ← requestOf typeName field fullRequest input
  let result ← resolved setting.surroundings setting.services api request
  return printed result.json

/-- Renders the template in a file. -/
def render (path : String) : ExceptT Failure m String := do
  let source ← match ← setting.contentOf path with
    | .ok source => pure source
    | .error cause => throw (.unreadableTemplate path cause)
  match contextOf? (← inputJson (← setting.input)) with
  | some context => return printed (rendered setting.surroundings source context)
  | none => throw .invalidContext

/-- Runs a command: the text that it prints. -/
def perform : Command → ExceptT Failure m String
  | .hint => return hint
  | .help topic => return help topic
  | .version => return version
  | .resolve path typeName field fullRequest => resolve setting path typeName field fullRequest
  | .render path => render setting path

/-- Runs the command that arguments ask for. -/
def run (arguments : List String) : m (Except Failure String) :=
  match Command.ofArguments? arguments with
  | some command => (perform setting command).run
  | none => return .error .usage

end

end FieldResolver.CommandLine
