/-
**Definitions, read back.**

The definition of an API is read back from its JSON form, and so are its functions and resolvers. A
definition that was read from a text can be written and read again.

* `FunctionDefinition.ofJson?_json`, `ResolverEntry.ofJson?_json`, `Definition.ofJson?_json`: what
  is written is read back;
* `Definition.valid_of_ofText`: what is read can be written;
* `Definition.ofText_render`: from the text, too.
-/

import FieldResolver.Proofs.Api.Sources

namespace FieldResolver

/-! ### Templates -/

namespace TemplateSource

theorem ofJson?_json (source : TemplateSource) : ofJson? source.json = some source := by
  cases source <;> rfl

theorem json_ne_null (source : TemplateSource) : source.json ≠ .null := by
  cases source <;> exact nofun

/-- A template that may be missing is read back. -/
theorem optional {fields : Dict Json} {name : String} {source : Option TemplateSource}
    (found : fields.get? name = source.map json) :
    Json.Record.optional ⟨fields, false⟩ name ofJson? = some source :=
  Json.Record.optional_of_map found json_ne_null fun source _ => source.ofJson?_json

theorem readable_json (source : TemplateSource) : Json.Readable 1 source.json := by
  cases source with
  | inline text =>
    exact .object (List.nodup_singleton "inline") (List.forall_mem_singleton.mpr (.string text))
  | file path => exact .string path

end TemplateSource

/-! ### Functions -/

namespace FunctionDefinition

variable {function : FunctionDefinition} {fields : Dict Json}

theorem distinct_of_json (shape : function.json = .object fields) :
    (Dict.keys fields).Nodup := by
  cases shape
  rw [Dict.keys_append, Dict.keys_append]
  exact List.Nodup.sublist (((List.Sublist.refl _).append (keys_optionalField _ _)).append
    (keys_optionalField _ _)) (show ["name", "dataSource", "request", "response"].Nodup by decide)

/-- **A function is read back.** -/
theorem ofJson?_json (function : FunctionDefinition) : ofJson? function.json = some function := by
  obtain ⟨fields, shape⟩ : ∃ fields : Dict Json, function.json = .object fields := ⟨_, rfl⟩
  have name : fields.get? "name" = some (.string function.name) := by
    cases shape
    rfl
  have dataSource : fields.get? "dataSource" = some (.string function.dataSource) := by
    cases shape
    rfl
  have request : fields.get? "request" = function.request.map TemplateSource.json := by
    cases shape
    simp [Dict.get?_append, Dict.get?_cons, get?_optionalField]
  have response : fields.get? "response" = function.response.map TemplateSource.json := by
    cases shape
    simp [Dict.get?_append, Dict.get?_cons, get?_optionalField]
  rw [shape, ofJson?, Json.Record.ofJson?_object _ (distinct_of_json shape)]
  simp [Json.Record.required, name, dataSource, Json.string?, TemplateSource.optional request,
    TemplateSource.optional response]

theorem readable_json (function : FunctionDefinition) : Json.Readable 2 function.json := by
  refine .object (distinct_of_json rfl) ?_
  rw [List.forall_mem_append, List.forall_mem_append, List.forall_mem_cons,
    List.forall_mem_singleton]
  refine ⟨⟨⟨.string _, .string _⟩, ?_⟩, ?_⟩
  · exact readable_optionalField "request" fun source _ => source.readable_json
  · exact readable_optionalField "response" fun source _ => source.readable_json

end FunctionDefinition

/-! ### Resolvers -/

theorem ResolverShape.ofJson?_name (shape : ResolverShape) :
    ResolverShape.ofJson? (.string shape.name) = some shape := by
  cases shape <;> rfl

namespace ResolverEntry

variable {resolver : ResolverEntry} {fields : Dict Json}

/-- The fields of a resolver: functions are listed only if there are any. -/
theorem json_eq (resolver : ResolverEntry) :
    resolver.json = .object
      ([("type", .string resolver.typeName), ("field", .string resolver.field),
          ("kind", .string resolver.shape.name)] ++
        optionalField "dataSource" (resolver.dataSource.map .string) ++
        optionalField "functions" (if resolver.functions = [] then none
          else some (.array (resolver.functions.map .string))) ++
        optionalField "request" (resolver.request.map TemplateSource.json) ++
        optionalField "response" (resolver.response.map TemplateSource.json)) := by
  unfold json
  cases resolver.functions <;> rfl

theorem distinct_of_json (shape : resolver.json = .object fields) :
    (Dict.keys fields).Nodup := by
  rw [json_eq] at shape
  cases shape
  simp only [Dict.keys_append]
  refine List.Nodup.sublist (((((List.Sublist.refl _).append (keys_optionalField _ _)).append
    (keys_optionalField _ _)).append (keys_optionalField _ _)).append (keys_optionalField _ _)) ?_
  show ["type", "field", "kind", "dataSource", "functions", "request", "response"].Nodup
  decide

/-- **A resolver is read back.** -/
theorem ofJson?_json (resolver : ResolverEntry) : ofJson? resolver.json = some resolver := by
  obtain ⟨fields, shape⟩ : ∃ fields : Dict Json, resolver.json = .object fields := ⟨_, rfl⟩
  have distinct := distinct_of_json shape
  rw [shape, ofJson?, Json.Record.ofJson?_object _ distinct]
  rw [json_eq] at shape
  have typeName : fields.get? "type" = some (.string resolver.typeName) := by
    cases shape
    rfl
  have field : fields.get? "field" = some (.string resolver.field) := by
    cases shape
    rfl
  have kind : Json.Record.defaulted ⟨fields, false⟩ "kind" .unit ResolverShape.ofJson? =
      some resolver.shape := by
    cases shape
    exact ResolverShape.ofJson?_name resolver.shape
  have dataSource : fields.get? "dataSource" = resolver.dataSource.map .string := by
    cases shape
    simp [Dict.get?_append, Dict.get?_cons, get?_optionalField]
  have listed : fields.get? "functions" = if resolver.functions = [] then none
      else some (.array (resolver.functions.map .string)) := by
    cases shape
    simp [Dict.get?_append, Dict.get?_cons, get?_optionalField]
  have functions : Json.Record.defaulted ⟨fields, false⟩ "functions" []
      (Json.listOf? Json.string?) = some resolver.functions := by
    rw [Json.Record.defaulted, listed]
    by_cases none : resolver.functions = []
    · rw [if_pos none, none]
    · rw [if_neg none]
      exact Json.listOf?_strings resolver.functions
  have request : fields.get? "request" = resolver.request.map TemplateSource.json := by
    cases shape
    simp [Dict.get?_append, Dict.get?_cons, get?_optionalField]
  have response : fields.get? "response" = resolver.response.map TemplateSource.json := by
    cases shape
    simp [Dict.get?_append, Dict.get?_cons, get?_optionalField]
  simp [Json.Record.required, typeName, field, kind, functions, Json.string?,
    Json.Record.optional_string dataSource, TemplateSource.optional request,
    TemplateSource.optional response]

theorem readable_json (resolver : ResolverEntry) : Json.Readable 2 resolver.json := by
  refine .object (distinct_of_json rfl) ?_
  have functions : ∀ field ∈ (if resolver.functions.isEmpty then []
      else [("functions", Json.array (resolver.functions.map .string))]),
      Json.Readable 1 field.2 := by
    split
    · exact fun _ member => absurd member List.not_mem_nil
    · exact List.forall_mem_singleton.mpr (.strings resolver.functions)
  simp only [List.forall_mem_append]
  refine ⟨⟨⟨⟨?_, ?_⟩, functions⟩, ?_⟩, ?_⟩
  · rw [List.forall_mem_cons, List.forall_mem_cons, List.forall_mem_singleton]
    exact ⟨.string _, .string _, .string _⟩
  · exact readable_optionalField "dataSource" fun name _ => .string name
  · exact readable_optionalField "request" fun source _ => source.readable_json
  · exact readable_optionalField "response" fun source _ => source.readable_json

end ResolverEntry

/-! ### Definitions -/

namespace Definition

/-- Whether the default time for a call is a 64-bit number and all data sources are valid. -/
structure Valid (definition : Definition) : Prop where
  timeout : ∀ ms ∈ definition.defaultTimeoutMs, (ms : Int) ≤ Json.maxNat
  sources : ∀ source ∈ definition.dataSources, source.Valid

variable {definition : Definition} {fields : Dict Json}

/-- The fields of a definition. -/
theorem json_eq (definition : Definition) :
    definition.json = .object
      ([("name", .string definition.name),
          ("mappingTemplatesLocation", .string definition.templatesLocation)] ++
        optionalField "defaultTimeoutMs"
          (definition.defaultTimeoutMs.map fun ms : Nat => Json.int ms) ++
        [("dataSources", .array (definition.dataSources.map DataSource.definitionJson)),
          ("functions", .array (definition.functions.map FunctionDefinition.json)),
          ("resolvers", .array (definition.resolvers.map ResolverEntry.json))]) := by
  unfold json
  cases definition.defaultTimeoutMs <;> rfl

theorem distinct_of_json (shape : definition.json = .object fields) :
    (Dict.keys fields).Nodup := by
  cases shape
  rw [Dict.keys_append, Dict.keys_append]
  refine List.Nodup.sublist (((List.Sublist.refl _).append (keys_optionalField _ _)).append
    (List.Sublist.refl _)) ?_
  show ["name", "mappingTemplatesLocation", "defaultTimeoutMs", "dataSources", "functions",
    "resolvers"].Nodup
  decide

/-- **A definition is read back.** -/
theorem ofJson?_json (valid : definition.Valid) : ofJson? definition.json = some definition := by
  obtain ⟨fields, shape⟩ : ∃ fields : Dict Json, definition.json = .object fields := ⟨_, rfl⟩
  have distinct := distinct_of_json shape
  rw [shape, ofJson?, Json.Record.ofJson?_object _ distinct]
  rw [json_eq] at shape
  have name : fields.get? "name" = some (.string definition.name) := by
    cases shape
    rfl
  have location : fields.get? "mappingTemplatesLocation" =
      some (.string definition.templatesLocation) := by
    cases shape
    rfl
  have timeout : fields.get? "defaultTimeoutMs" =
      definition.defaultTimeoutMs.map fun ms : Nat => Json.int ms := by
    cases shape
    simp [Dict.get?_append, Dict.get?_cons, get?_optionalField]
  have sources : fields.get? "dataSources" =
      some (.array (definition.dataSources.map DataSource.definitionJson)) := by
    cases shape
    simp [Dict.get?_append, Dict.get?_cons, get?_optionalField]
  have functions : fields.get? "functions" =
      some (.array (definition.functions.map FunctionDefinition.json)) := by
    cases shape
    simp [Dict.get?_append, Dict.get?_cons, get?_optionalField]
  have resolvers : fields.get? "resolvers" =
      some (.array (definition.resolvers.map ResolverEntry.json)) := by
    cases shape
    simp [Dict.get?_append, Dict.get?_cons, get?_optionalField]
  have sourcesBack := Json.listOf?_map fun source member =>
    DataSource.ofDefinition?_definitionJson (valid.sources source member)
  have functionsBack : Json.listOf? FunctionDefinition.ofJson? _ = some definition.functions :=
    Json.listOf?_map fun function _ => function.ofJson?_json
  have resolversBack : Json.listOf? ResolverEntry.ofJson? _ = some definition.resolvers :=
    Json.listOf?_map fun resolver _ => resolver.ofJson?_json
  simp [Json.Record.required, Json.Record.defaulted, name, location, sources, functions, resolvers,
    Json.string?, Json.Record.optional_nat timeout valid.timeout, sourcesBack, functionsBack,
    resolversBack]

theorem readable_json (valid : definition.Valid) : Json.Readable 5 definition.json := by
  have sources : Json.Readable 4 (.array (definition.dataSources.map DataSource.definitionJson)) :=
    .array (List.forall_mem_map.mpr fun source member =>
      DataSource.readable_definitionJson (valid.sources source member))
  have functions : Json.Readable 3 (.array (definition.functions.map FunctionDefinition.json)) :=
    .array (List.forall_mem_map.mpr fun function _ => function.readable_json)
  have resolvers : Json.Readable 3 (.array (definition.resolvers.map ResolverEntry.json)) :=
    .array (List.forall_mem_map.mpr fun resolver _ => resolver.readable_json)
  rw [json_eq]
  refine .object (distinct_of_json (json_eq definition)) ?_
  rw [List.forall_mem_append, List.forall_mem_append]
  refine ⟨⟨?_, ?_⟩, ?_⟩
  · rw [List.forall_mem_cons, List.forall_mem_singleton]
    exact ⟨.string _, .string _⟩
  · exact readable_optionalField "defaultTimeoutMs" fun ms known => .nat (valid.timeout ms known)
  · rw [List.forall_mem_cons, List.forall_mem_cons, List.forall_mem_singleton]
    exact ⟨sources, functions.mono (by decide), resolvers.mono (by decide)⟩

/-- **A definition is read back from its text.** -/
theorem ofText_render (valid : definition.Valid) :
    ofText definition.json.render = .ok definition := by
  have readable : Json.Readable Json.maxNesting definition.json :=
    (readable_json valid).mono (by decide)
  simp only [ofText, readable.parseWritten, Except.mapError, Bind.bind, Except.bind,
    ofJson?_json valid]

/-- A definition that is read can be written. -/
theorem valid_of_ofJson? {value : Json} (read : ofJson? value = some definition) :
    definition.Valid := by
  obtain ⟨record, -, read⟩ := Option.bind_eq_some_iff.mp read
  obtain ⟨name, -, read⟩ := Option.bind_eq_some_iff.mp read
  obtain ⟨location, -, read⟩ := Option.bind_eq_some_iff.mp read
  obtain ⟨timeout, bounded, read⟩ := Option.bind_eq_some_iff.mp read
  obtain ⟨sources, listed, read⟩ := Option.bind_eq_some_iff.mp read
  obtain ⟨functions, -, read⟩ := Option.bind_eq_some_iff.mp read
  obtain ⟨resolvers, -, same⟩ := Option.bind_eq_some_iff.mp read
  cases same
  exact ⟨Json.Record.le_maxNat_of_optional bounded,
    Json.Record.forall_of_defaulted DataSource.valid_of_ofDefinition? listed⟩

theorem valid_of_ofText {text : String} (read : ofText text = .ok definition) :
    definition.Valid := by
  obtain ⟨written, -, read⟩ := Fallible.bind_ok read
  cases found : ofJson? written with
  | none =>
    rw [found] at read
    cases read
  | some other =>
    rw [found] at read
    cases read
    exact valid_of_ofJson? found

end Definition

end FieldResolver
