/-
**Web and search requests.**

A web request has a method, a path below the endpoint, a query, headers and a body. A search request
is sent as a web request whose body and headers are JSON unless they say otherwise. What is sent is
an `Outgoing` request; the network is a parameter (`Transport`).

* `Request.outgoing` builds what is sent, and `execute` and `search` also read the answer.
-/

import FieldResolver.Json.Reader
import FieldResolver.Json.Record
import FieldResolver.Json.Printer
import FieldResolver.Source.Url
import FieldResolver.Unicode.Case

namespace FieldResolver.Web

/-- The methods that can be sent. -/
inductive Method where
  | get
  | post
  | put
  | delete
  | patch
  | head
  | options
deriving DecidableEq, Repr

namespace Method

/-- The name of a method. -/
def name : Method → String
  | .get => "GET"
  | .post => "POST"
  | .put => "PUT"
  | .delete => "DELETE"
  | .patch => "PATCH"
  | .head => "HEAD"
  | .options => "OPTIONS"

/-- The method of a name in capitals. -/
def ofName? (name : String) : Option Method :=
  [get, post, put, delete, patch, head, options].find? fun method => method.name == name

/-- A name stands for its method. -/
theorem ofName?_name (method : Method) : ofName? method.name = some method := by
  cases method <;> decide

end Method

/-- Why a request fails. -/
inductive Failure where
  | malformed
  | unknownMethod (method : String)
  | invalidUrl (url : String)
  /-- The request was not sent or not answered. -/
  | unsent (cause : String)
  /-- The answer is not JSON. -/
  | invalidAnswer (cause : String)
deriving DecidableEq

namespace Failure

/-- The wording of a failure. -/
def message : Failure → String
  | .malformed => "invalid request: not a web request"
  | .unknownMethod method => "invalid method: unsupported HTTP method: " ++ method
  | .invalidUrl url => s!"invalid url '{url}': not an address"
  | .unsent cause => "request failed: " ++ cause
  | .invalidAnswer cause => "invalid response body: " ++ cause

/-- The kind that is reported of a failure. -/
def kind : Failure → String
  | .malformed | .unknownMethod _ | .invalidUrl _ => "HTTP:InvalidRequest"
  | .unsent _ => "HTTP:RequestFailed"
  | .invalidAnswer _ => "HTTP:InvalidResponse"

end Failure

/-- A request that is sent; the names of its headers are in small letters. -/
structure Outgoing where
  method : Method
  url : String
  headers : List (String × String)
  body : Option String
deriving DecidableEq

/-- An answer. -/
structure Incoming where
  status : Nat
  headers : List (String × String)
  body : String

/-- The network: the answer to a request, or why there is none. -/
abbrev Transport := Outgoing → Except String Incoming

/-- A web request below an endpoint. -/
structure Request where
  method : String := "GET"
  path : String := ""
  query : Dict Json := []
  headers : Dict Json := []
  /-- Text is sent as it is and any other value as JSON text. -/
  body : Option Json := none

namespace Request

/-- Reads a web request. -/
def ofJson? (value : Json) : Option Request := do
  let record ← Json.Record.ofJson? ["method", "resourcePath", "params"] value
  let method ← record.defaulted "method" "GET" Json.string?
  let path ← record.defaulted "resourcePath" "" Json.string?
  let parameters ← record.defaulted "params" (.object []) some
  let parameters ← Json.Record.ofJson? ["query", "headers", "body"] parameters
  let query ← parameters.defaulted "query" [] Json.fields?
  let headers ← parameters.defaulted "headers" [] Json.fields?
  let body ← parameters.nullable "body" Json.any?
  some { method, path, query, headers, body }

/-- The text of a value in a query or a header. -/
def plainText : Json → String
  | .string text => text
  | .null => ""
  | value => value.render

/-- The pairs of a query; a list gives a pair for each of its items. -/
def queryPairs (query : Dict Json) : List (String × String) :=
  query.flatMap fun (name, value) =>
    match value with
    | .array items => items.map fun item => (name, plainText item)
    | _ => [(name, plainText value)]

/-- The text of the address before it is read. -/
def rawUrl (endpoint path : String) : String :=
  String.ofList (endpoint.toList.reverse.dropWhile (· == '/')).reverse ++ path

/-- A text in small letters, as names of headers are compared. -/
def smallLetters (text : String) : String := text.map Char.toLower

/-- Whether there is a header of a name. -/
def hasHeader (headers : Dict Json) (name : String) : Bool :=
  headers.keys.any fun key => smallLetters key == name

/-- The body as it is sent. -/
def sentBody : Option Json → Option String
  | none | some .null => none
  | some (.string text) => some text
  | some value => some value.render

/-- The header that says that a body is JSON. -/
def jsonHeader : String × String := ("content-type", "application/json")

/-- The header that is added for a body that is JSON. -/
def addedHeaders (headers : Dict Json) : Option Json → List (String × String)
  | none | some .null | some (.string _) => []
  | some _ => if hasHeader headers "content-type" then [] else [jsonHeader]

/-- The headers that are sent. -/
def sentHeaders (request : Request) : List (String × String) :=
  (request.headers.map fun (name, value) => (smallLetters name, plainText value)) ++
    addedHeaders request.headers request.body

/-- Whether a character may stand in the name of a header. -/
def isHeaderNameChar (c : Char) : Bool :=
  c.isAlphanum || ['!', '#', '$', '%', '&', '\'', '*', '+', '-', '.', '^', '_', '\x60', '|',
    '~'].contains c

/-- Whether a character may stand in the value of a header. -/
def isHeaderValueChar (c : Char) : Bool := (32 ≤ c.toNat && c.toNat != 127) || c == '\t'

/-- Whether a header can be sent. -/
def isHeader : String × String → Bool
  | (name, value) =>
    name != "" && name.toList.all isHeaderNameChar && value.toList.all isHeaderValueChar

/-- The address of a request. -/
def url (endpoint : String) (request : Request) : Except Failure Url :=
  let raw := rawUrl endpoint request.path
  match Url.parse? raw with
  | none => .error (.invalidUrl raw)
  | some (.other text) => .ok (.other text)
  | some (.web address) =>
    if request.query.isEmpty then .ok (.web address)
    else .ok (.web (Url.addPairs address (queryPairs request.query)))

/-- What is sent for a request. -/
def outgoing (endpoint : String) (request : Request) : Except Failure Outgoing := do
  let method ← match Method.ofName? (Unicode.uppercase request.method) with
    | some method => .ok method
    | none => .error (.unknownMethod request.method)
  match ← url endpoint request with
  | .other _ => .error (.unsent "not an address of the web")
  | .web address =>
    let headers := request.sentHeaders
    if headers.all isHeader then
      return { method, url := address.text, headers, body := sentBody request.body }
    else .error (.unsent "a header that cannot be sent")

end Request

namespace Incoming

/-- Whether a character of a header's value can be given to templates. -/
def isVisible (c : Char) : Bool := (32 ≤ c.toNat && c.toNat < 127) || c == '\t'

/-- The headers of an answer by name; of a repeated name the last visible value counts. -/
def headerFields (answer : Incoming) : Dict Json :=
  let visible := answer.headers.filter fun (_, value) => value.toList.all isVisible
  let named := visible.map fun (name, value) => (Request.smallLetters name, Json.string value)
  (Dict.ofEntries named).mergeSort fun a b => decide (a.1 ≤ b.1)

/-- An answer as a value. -/
def json (answer : Incoming) : Json :=
  .object
    [("statusCode", .int answer.status), ("headers", .object answer.headerFields),
      ("body", .string answer.body)]

end Incoming

/-- Sends a request. -/
def send (transport : Transport) (endpoint : String) (request : Request) :
    Except Failure Incoming := do
  (transport (← request.outgoing endpoint)).mapError .unsent

/-- The answer to a web request. -/
def execute (transport : Transport) (endpoint : String) (request : Json) : Except Failure Json :=
  match Request.ofJson? request with
  | none => .error .malformed
  | some request => (send transport endpoint request).map Incoming.json

/-- A search request. -/
structure Search where
  path : String := ""
  operation : String := "POST"
  body : Option Json := none
  query : Dict Json := []
  headers : Dict Json := []

namespace Search

/-- Reads a search request. -/
def ofJson? (value : Json) : Option Search := do
  let record ← Json.Record.ofJson? ["path", "operation", "params"] value
  let path ← record.defaulted "path" "" Json.string?
  let operation ← record.defaulted "operation" "POST" Json.string?
  let parameters ← record.defaulted "params" (.object []) some
  let parameters ← Json.Record.ofJson? ["body", "queryString", "headers"] parameters
  let body ← parameters.nullable "body" Json.any?
  let query ← parameters.defaulted "queryString" [] Json.fields?
  let headers ← parameters.defaulted "headers" [] Json.fields?
  some { path, operation, body, query, headers }

/-- The text of a search; none for an empty one. -/
def text? : Option Json → Option String
  | none | some .null | some (.object []) => none
  | some (.string text) => some text
  | some value => some value.render

/-- The method of a search: one that has a text is posted instead of got. -/
def method (search : Search) : String :=
  let operation := Unicode.uppercase search.operation
  if (text? search.body).isSome && (operation == "GET" || operation == "HEAD") then "POST"
  else operation

/-- The web request of a search. -/
def request (search : Search) : Request where
  method := search.method
  path := search.path
  query := search.query
  headers := search.headers.foldl (fun headers (name, value) => headers.insert name value)
    [("Content-Type", .string "application/json")]
  body := (text? search.body).map .string

end Search

/-- The answer to a search request. -/
def search (transport : Transport) (endpoint : String) (request : Json) : Except Failure Json :=
  match Search.ofJson? request with
  | none => .error .malformed
  | some search => do
    let answer ← send transport endpoint search.request
    (Json.parse answer.body).mapError .invalidAnswer

end FieldResolver.Web
