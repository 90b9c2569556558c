/-
**Requests, read back.**

A request to resolve a field is read back from its JSON form, and so is everything else that travels
between programs: definitions of APIs, data sources and resolvers.

A text is more than its value: its reader goes only so deep, and the double that it makes of decimal
digits may be a neighbour of the one that was written. Definitions, data sources and resolvers are
never deep and have no doubles, so their texts are as good as their values. The values of a request
are anything, and its text is read back if the reader goes as deep and brings back its doubles.

* `FieldRequest.ofJson?_json`: a request is read back as a value;
* `wire_readBack`: values and texts of all that travels;
* `request_texts_differ`: requests whose texts are not read back.
-/

import FieldResolver.Field.Request
import FieldResolver.Proofs.Api.Definitions
import FieldResolver.Proofs.Api.Resolvers

namespace FieldResolver

namespace PathStep

/-- Whether an index is a 64-bit number. -/
def Valid : PathStep → Prop
  | .index place => (place : Int) ≤ Json.maxNat
  | .field _ => True

theorem ofJson?_json {step : PathStep} (valid : step.Valid) : ofJson? step.json = some step := by
  cases step with
  | index place =>
    show (Json.nat? (.int place)).map index = _
    rw [Json.nat?_int valid]
    rfl
  | field name => rfl

theorem valid_json {step : PathStep} (valid : step.Valid) : step.json.Valid := by
  cases step with
  | index place => exact ⟨le_trans (by decide) (Int.natCast_nonneg place), valid⟩
  | field name => trivial

end PathStep

namespace FieldInfo

/-- Whether the variables can stand in a text and the indices are 64-bit numbers. -/
structure Valid (info : FieldInfo) : Prop where
  queryVariables : (Json.object info.queryVariables).Valid
  path : ∀ step ∈ info.path, step.Valid

variable {info : FieldInfo}

/-- **What is said of a field is read back.** -/
theorem ofJson?_json (valid : info.Valid) : ofJson? info.json = some info := by
  obtain ⟨fields, shape⟩ : ∃ fields : Dict Json, info.json = .object fields := ⟨_, rfl⟩
  have distinct : (Dict.keys fields).Nodup := by
    cases shape
    show ["parentTypeName", "fieldName", "variables", "selectionSetList", "path"].Nodup
    decide
  have parentType : fields.get? "parentTypeName" = some (.string info.parentType) := by
    cases shape
    rfl
  have field : fields.get? "fieldName" = some (.string info.field) := by
    cases shape
    rfl
  have variableField : fields.get? "variables" = some (.object info.queryVariables) := by
    cases shape
    rfl
  have selections : fields.get? "selectionSetList" =
      some (.array (info.selections.map .string)) := by
    cases shape
    rfl
  have path : fields.get? "path" = some (PathStep.pathJson info.path) := by
    cases shape
    rfl
  have steps : Json.listOf? PathStep.ofJson? (PathStep.pathJson info.path) = some info.path :=
    Json.listOf?_map fun step member => PathStep.ofJson?_json (valid.path step member)
  rw [shape, ofJson?, Json.Record.ofJson?_object _ distinct]
  simp [Json.Record.required, Json.Record.defaulted, parentType, field, variableField, selections,
    path, Json.string?, Json.fields?_of_valid valid.queryVariables, Json.listOf?_strings, steps]

theorem valid_json (valid : info.Valid) : info.json.Valid := by
  have path : (PathStep.pathJson info.path).Valid :=
    Json.itemsValid_iff.mpr (List.forall_mem_map.mpr fun step member =>
      PathStep.valid_json (valid.path step member))
  have selections : (Json.array (info.selections.map .string)).Valid :=
    Json.itemsValid_iff.mpr (List.forall_mem_map.mpr fun _ _ => trivial)
  refine ⟨?_, trivial, trivial, valid.queryVariables, selections, path, trivial⟩
  show ["parentTypeName", "fieldName", "variables", "selectionSetList", "path"].Nodup
  decide

end FieldInfo

namespace FieldRequest

/-- Whether the parts of a request can stand in a text, with distinct headers. -/
structure Valid (request : FieldRequest) : Prop where
  arguments : request.arguments.Valid
  source : request.source.Valid
  identity : request.identity.Valid
  headers : (Dict.keys request.headers).Nodup
  info : request.info.Valid

variable {request : FieldRequest}

theorem distinct_of_json {fields : Dict Json} (shape : request.json = .object fields) :
    (Dict.keys fields).Nodup := by
  cases shape
  show ["arguments", "source", "identity", "requestHeaders", "authType", "info"].Nodup
  decide

/-- **A request is read back.** -/
theorem ofJson?_json (valid : request.Valid) : ofJson? request.json = some request := by
  obtain ⟨fields, shape⟩ : ∃ fields : Dict Json, request.json = .object fields := ⟨_, rfl⟩
  have arguments : fields.get? "arguments" = some request.arguments := by
    cases shape
    rfl
  have source : fields.get? "source" = some request.source := by
    cases shape
    rfl
  have identity : fields.get? "identity" = some request.identity := by
    cases shape
    rfl
  have headers : fields.get? "requestHeaders" =
      some (.object (request.headers.mapValues .string)) := by
    cases shape
    rfl
  have authorization : fields.get? "authType" = some (.string request.authorization.name) := by
    cases shape
    rfl
  have info : fields.get? "info" = some request.info.json := by
    cases shape
    rfl
  have way : Authorization.ofJson? (.string request.authorization.name) =
      some request.authorization :=
    Authorization.ofName?_name request.authorization
  rw [shape, ofJson?, Json.Record.ofJson?_object _ (distinct_of_json shape)]
  simp [Json.Record.defaulted, arguments, source, identity, headers, authorization, info, Json.any?,
    valid.arguments.merged_eq, valid.source.merged_eq, valid.identity.merged_eq,
    Json.dictOf?_strings valid.headers, way, FieldInfo.ofJson?_json valid.info]

theorem valid_json (valid : request.Valid) : request.json.Valid := by
  have headers : (Json.object (request.headers.mapValues .string)).Valid := by
    refine ⟨?_, Json.fieldsValid_iff.mpr (List.forall_mem_map.mpr fun _ _ => trivial)⟩
    rw [Dict.keys_mapValues]
    exact valid.headers
  exact ⟨distinct_of_json rfl, valid.arguments, valid.source, valid.identity, headers, trivial,
    FieldInfo.valid_json valid.info, trivial⟩

end FieldRequest

/-! ### Everything that travels -/

/-- **What travels between programs is read back.** Definitions, data sources and resolvers come
back from their values and from their texts, and requests from their values; from its text a request
comes back if the reader goes as deep as it and brings back its doubles. So a definition that was
read from a text can be written and read again, and stays what it is. -/
theorem wire_readBack :
    (∀ definition : Definition, definition.Valid →
      Definition.ofJson? definition.json = some definition ∧
        Definition.ofText definition.json.render = .ok definition) ∧
      (∀ source : DataSource, source.Valid →
        DataSource.ofJson? source.json = some source ∧
          Json.readAs DataSource.ofJson? source.json.render = some source) ∧
      (∀ resolver : Resolver,
        Resolver.ofJson? resolver.json = some resolver ∧
          Json.readAs Resolver.ofJson? resolver.json.render = some resolver) ∧
      (∀ request : FieldRequest, request.Valid →
        FieldRequest.ofJson? request.json = some request ∧
          (request.json.AllNumbers Json.Number.Kept → request.json.depth ≤ Json.maxNesting →
            Json.readAs FieldRequest.ofJson? request.json.render = some request)) ∧
      ∀ text definition, Definition.ofText text = .ok definition →
        Definition.ofText definition.json.render = .ok definition := by
  refine ⟨fun definition valid => ?_, fun source valid => ?_, fun resolver => ?_,
    fun request valid => ?_, fun text definition read => ?_⟩
  · exact ⟨Definition.ofJson?_json valid, Definition.ofText_render valid⟩
  · refine ⟨DataSource.ofJson?_json valid, ?_⟩
    rw [((DataSource.readable_json valid).mono (by decide)).readAs]
    exact DataSource.ofJson?_json valid
  · refine ⟨resolver.ofJson?_json, ?_⟩
    rw [(resolver.readable_json.mono (by decide)).readAs]
    exact resolver.ofJson?_json
  · refine ⟨FieldRequest.ofJson?_json valid, fun kept within => ?_⟩
    rw [Json.Readable.readAs ⟨FieldRequest.valid_json valid, kept, within⟩]
    exact FieldRequest.ofJson?_json valid
  · exact Definition.ofText_render (Definition.valid_of_ofText read)

namespace Mail

/-- A definition with a process whose environment has two keys, and a pipeline. -/
def definition : Definition where
  name := "mail"
  defaultTimeoutMs := some 0
  dataSources :=
    [{ name := "send", timeoutMs := some 18446744073709551615,
        config := .function "send" (.process "sh" ["-c", ""] none [("A", "1"), ("", "")]) },
      { name := "drop", config := .none }]
  functions := [{ name := "first", dataSource := "send", request := some (.inline "{}") }]
  resolvers :=
    [{ typeName := "Query", field := "mail", shape := .pipeline, functions := ["first"],
        response := some (.file "mail.vtl") },
      { typeName := "Query", field := "none", dataSource := some "drop" }]

/-- A bound data source. -/
def source : DataSource where
  name := "send"
  timeoutMs := some 5
  config := .function "send" (.registered "handler")

/-- A request with a list, a double and two headers. -/
def request : FieldRequest where
  arguments := .object [("ids", .array [.int (-1), .number (.float 0.5)])]
  headers := [("host", "a"), ("accept", "*")]
  authorization := .iam
  info := { parentType := "Query", field := "mail", path := [.field "mail", .index 3] }

/-- A short text of a definition. -/
def text : String := "\x7b\"name\":\"mail\"\x7d"

/-- **The mail** comes back from its texts. -/
theorem texts_readBack :
    Definition.ofText definition.json.render = .ok definition ∧
      Json.readAs DataSource.ofJson? source.json.render = some source ∧
      Json.readAs FieldRequest.ofJson? request.json.render = some request ∧
      ∃ short, Definition.ofText text = .ok short ∧
        Definition.ofText short.json.render = .ok short := by
  obtain ⟨definitions, sources, -, requests, texts⟩ := wire_readBack
  have environment : ["A", ""].Nodup := by decide
  have validSources : ∀ source ∈ definition.dataSources, source.Valid := by
    rw [definition, List.forall_mem_cons, List.forall_mem_singleton]
    refine ⟨⟨?_, environment⟩, ⟨nofun, trivial⟩⟩
    rintro ms ⟨⟩
    decide
  have validDefinition : definition.Valid := by
    refine ⟨?_, validSources⟩
    rintro ms ⟨⟩
    decide
  have validSource : source.Valid := by
    refine ⟨?_, trivial⟩
    rintro ms ⟨⟩
    decide
  have half : (Json.Number.float 0.5).Valid := show Decimal.isFinite 0.5 = true by decide +kernel
  have minus : (Json.Number.int (-1)).Valid := by
    show Json.minInt ≤ _ ∧ _ ≤ Json.maxNat
    decide
  have path : ∀ step ∈ request.info.path, step.Valid := by
    rw [request, List.forall_mem_cons, List.forall_mem_singleton]
    refine ⟨trivial, ?_⟩
    show (3 : Int) ≤ Json.maxNat
    decide
  have validRequest : request.Valid :=
    ⟨⟨List.nodup_singleton _, ⟨minus, half, trivial⟩, trivial⟩, trivial, trivial,
      show ["host", "accept"].Nodup by decide, ⟨⟨List.nodup_nil, trivial⟩, path⟩⟩
  have double : (Json.Number.float 0.5).ReadsBack := by decide +kernel
  have kept : request.json.AllNumbers Json.Number.Kept := by
    simp [FieldRequest.json, FieldInfo.json, request, Json.AllNumbers, Json.FieldNumbers,
      Json.ItemNumbers, Json.Number.Kept, PathStep.pathJson, PathStep.json, Dict.mapValues, double,
      Json.int]
  have within : request.json.depth ≤ Json.maxNesting := by decide
  have read : Definition.ofText text = .ok { name := "mail" } := by decide +kernel
  exact ⟨(definitions definition validDefinition).2, (sources source validSource).2,
    (requests request validRequest).2 kept within, _, read, texts text _ read⟩

end Mail

/-! ### Texts that are not read back -/

/-- A request with a double that does not come back. -/
def distantRequest : FieldRequest where
  arguments := .number (.float 31.245270191439438)

/-- A request with lists that lie deeper than the reader goes. -/
def deepRequest : FieldRequest where
  arguments := Nat.repeat (fun inner => .array [inner]) Json.maxNesting .null

/-- Whether the arguments of a request are a number. -/
def FieldRequest.argumentIs (number : Json.Number) (request : FieldRequest) : Bool :=
  match request.arguments with
  | .number found => decide (found = number)
  | _ => false

/-- **The texts of some requests** are read as another request, or not at all. -/
theorem request_texts_differ :
    (distantRequest.Valid ∧
      Json.readAs FieldRequest.ofJson? distantRequest.json.render ≠ some distantRequest) ∧
      deepRequest.Valid ∧
        Json.readAs FieldRequest.ofJson? deepRequest.json.render ≠ some deepRequest := by
  have info : ({} : FieldInfo).Valid := ⟨⟨List.nodup_nil, trivial⟩, nofun⟩
  have finite : Decimal.isFinite 31.245270191439438 = true := by decide +kernel
  have nested : ∀ n, (Nat.repeat (fun inner => Json.array [inner]) n .null).Valid := by
    intro n
    induction n with
    | zero => trivial
    | succ n ih => exact ⟨ih, trivial⟩
  refine ⟨⟨⟨finite, trivial, trivial, List.nodup_nil, info⟩, fun same => ?_⟩,
    ⟨nested _, trivial, trivial, List.nodup_nil, info⟩, fun same => ?_⟩
  · have read : ((Json.readWritten distantRequest.json.chars).toOption.bind
        FieldRequest.ofJson?).map (FieldRequest.argumentIs (.float 31.245270191439438)) =
          some false := by
      decide +kernel
    rw [← Json.readAs_render, same] at read
    exact absurd read (by decide +kernel)
  · have read : ((Json.readWritten deepRequest.json.chars).toOption.bind
        FieldRequest.ofJson?).isSome = false := by
      decide +kernel
    rw [← Json.readAs_render, same] at read
    cases read

end FieldResolver
