/-
**Data sources, read back.**

A data source is read back from its JSON form, be it bound or written in the definition of an API.

* `FunctionTarget.ofJson?_fields`, `SourceConfig.ofFields?_fields`: the settings of each kind;
* `DataSource.ofJson?_json`: a bound data source;
* `DataSource.ofDefinition?_definitionJson`: a data source in a definition, and
  `DataSource.valid_of_ofDefinition?`: what is read there can be written again.
-/

import FieldResolver.Api.Definition
import FieldResolver.Proofs.Json.Records

namespace FieldResolver

/-! ### Fields that may be missing -/

theorem optionalField_map {α : Type} (name : String) (value : Option α) (form : α → Json) :
    (value.map fun content => (name, form content)).toList =
      optionalField name (value.map form) := by
  cases value <;> rfl

theorem get?_optionalField (name key : String) (value : Option Json) :
    Dict.get? (optionalField name value) key = if name = key then value else none := by
  cases value with
  | none => simp [optionalField]
  | some value => simp [optionalField, Dict.get?_cons]

theorem keys_optionalField (name : String) (value : Option Json) :
    (Dict.keys (optionalField name value)).Sublist [name] := by
  cases value with
  | none => exact List.nil_sublist _
  | some value => exact List.Sublist.refl _

/-- A field that may be missing is readable if its content is. -/
theorem readable_optionalField {α : Type} {bound : Nat} (name : String) {value : Option α}
    {form : α → Json} (each : ∀ content ∈ value, Json.Readable bound (form content)) :
    ∀ field ∈ optionalField name (value.map form), Json.Readable bound field.2 := by
  cases value with
  | none => exact fun _ member => absurd member List.not_mem_nil
  | some content => exact List.forall_mem_singleton.mpr (each content rfl)

/-! ### Settings -/

namespace FunctionTarget

/-- Whether the keys of the environment are distinct. -/
def Valid : FunctionTarget → Prop
  | .process _ _ _ environment => (Dict.keys environment).Nodup
  | .registered _ => True

theorem keys_fields (target : FunctionTarget) :
    (Dict.keys target.fields).Sublist ["runtime", "command", "args", "cwd", "env", "handler"] := by
  cases target with
  | process command arguments directory environment =>
    cases directory with
    | none =>
      show ["runtime", "command", "args", "env"].Sublist _
      decide
    | some path =>
      show ["runtime", "command", "args", "cwd", "env"].Sublist _
      decide
  | registered handler =>
    show ["runtime", "handler"].Sublist _
    decide

/-- **A target is read back.** -/
theorem ofJson?_fields {target : FunctionTarget} (valid : target.Valid) :
    ofJson? (.object target.fields) = some target := by
  have distinct := (keys_fields target).nodup (by decide)
  cases target with
  | process command arguments directory environment =>
    obtain ⟨rest, shape⟩ : ∃ rest : Dict Json,
        (process command arguments directory environment).fields =
          ("runtime", .string "process") :: rest := ⟨_, rfl⟩
    rw [shape] at distinct ⊢
    have listed := optionalField_map "cwd" directory Json.string
    have commandField : rest.get? "command" = some (.string command) := by
      cases shape
      rfl
    have argumentsField : rest.get? "args" = some (.array (arguments.map .string)) := by
      cases shape
      rfl
    have directoryField : rest.get? "cwd" = directory.map .string := by
      cases shape
      simp [listed, Dict.get?_append, Dict.get?_cons, get?_optionalField]
    have environmentField : rest.get? "env" = some (.object (environment.mapValues .string)) := by
      cases shape
      simp [listed, Dict.get?_append, Dict.get?_cons, get?_optionalField]
    rw [ofJson?, Json.spread?_object distinct]
    show (Json.Record.ofJson? _ (.object rest) >>= fun record => _) = _
    rw [Json.Record.ofJson?_object _ (List.nodup_cons.mp distinct).2]
    simp [Json.Record.required, Json.Record.defaulted, commandField, argumentsField,
      environmentField, Json.string?, Json.Record.optional_string directoryField,
      Json.listOf?_strings, Json.dictOf?_strings valid]
  | registered handler => rfl

/-- A target that is read is valid. -/
theorem valid_of_ofJson? {value : Json} {target : FunctionTarget}
    (read : ofJson? value = some target) : target.Valid := by
  obtain ⟨⟨runtime, rest⟩, -, read⟩ := Option.bind_eq_some_iff.mp read
  dsimp only at read
  split at read
  · obtain ⟨record, -, read⟩ := Option.bind_eq_some_iff.mp read
    obtain ⟨command, -, read⟩ := Option.bind_eq_some_iff.mp read
    obtain ⟨arguments, -, read⟩ := Option.bind_eq_some_iff.mp read
    obtain ⟨directory, -, read⟩ := Option.bind_eq_some_iff.mp read
    obtain ⟨environment, found, same⟩ := Option.bind_eq_some_iff.mp read
    cases same
    exact Json.Record.distinct_of_defaulted found
  · obtain ⟨record, -, read⟩ := Option.bind_eq_some_iff.mp read
    obtain ⟨handler, -, same⟩ := Option.bind_eq_some_iff.mp read
    cases same
    trivial
  · cases read

theorem readable_fields {target : FunctionTarget} (valid : target.Valid) :
    ∀ field ∈ target.fields, Json.Readable 1 field.2 := by
  cases target with
  | process command arguments directory environment =>
    have keys : (Dict.keys (environment.mapValues Json.string)).Nodup := by
      rw [Dict.keys_mapValues]
      exact valid
    have values : Json.Readable 1 (.object (environment.mapValues .string)) :=
      .object keys (List.forall_mem_map.mpr fun entry _ => .string entry.2)
    have front : ∀ field ∈ [("runtime", Json.string "process"), ("command", .string command),
        ("args", .array (arguments.map .string))], Json.Readable 1 field.2 := by
      rw [List.forall_mem_cons, List.forall_mem_cons, List.forall_mem_singleton]
      exact ⟨.string _, .string command, .strings arguments⟩
    have path : ∀ field ∈ (directory.map fun path => ("cwd", Json.string path)).toList,
        Json.Readable 1 field.2 := by
      rw [optionalField_map]
      exact readable_optionalField "cwd" fun path _ => .string path
    exact List.forall_mem_append.mpr ⟨List.forall_mem_append.mpr ⟨front, path⟩,
      List.forall_mem_singleton.mpr values⟩
  | registered handler =>
    show ∀ field ∈ [_, _], _
    rw [List.forall_mem_cons, List.forall_mem_singleton]
    exact ⟨.string _, .string handler⟩

end FunctionTarget

namespace SourceConfig

/-- Whether the configuration of a function has a valid target. -/
def Valid : SourceConfig → Prop
  | .function _ target => target.Valid
  | _ => True

theorem keys_fields (config : SourceConfig) :
    (Dict.keys config.fields).Sublist
      ["functionName", "runtime", "command", "args", "cwd", "env", "handler", "tableName",
        "endpoint", "databaseUrl"] := by
  cases config with
  | function functionName target =>
    refine List.Sublist.cons_cons _ (target.keys_fields.trans ?_)
    decide
  | kvTable tableName =>
    show ["tableName"].Sublist _
    decide
  | http endpoint | search endpoint =>
    show ["endpoint"].Sublist _
    decide
  | relational databaseUrl =>
    show ["databaseUrl"].Sublist _
    decide
  | none => exact List.nil_sublist _

theorem nodup_keys_fields (config : SourceConfig) : (Dict.keys config.fields).Nodup :=
  config.keys_fields.nodup (by decide)

/-- **The settings of a kind are read back.** -/
theorem ofFields?_fields {config : SourceConfig} (valid : config.Valid) :
    ofFields? config.kind (.object config.fields) = some config := by
  have distinct := config.nodup_keys_fields
  cases config with
  | function functionName target =>
    have record := Json.Record.ofObject?_object ["functionName"] distinct
    have rest := Json.filter_behind distinct (.string functionName)
    show (Json.Record.ofObject? ["functionName"] _ >>= fun record => _) = _
    rw [record]
    simp [Json.Record.required, fields, Dict.get?_cons, Json.string?, rest,
      FunctionTarget.ofJson?_fields valid]
  | _ => rfl

/-- **A bound configuration is read back.** -/
theorem ofJson?_json {config : SourceConfig} (valid : config.Valid) :
    ofJson? config.json = some config := by
  have distinct : ("kind" :: Dict.keys config.fields).Nodup :=
    (config.keys_fields.cons_cons "kind").nodup (by decide)
  rw [json, ofJson?, Json.tagged?_object distinct]
  simp [SourceKind.ofName?_name, ofFields?_fields valid]

theorem keys_definitionFields (config : SourceConfig) :
    (Dict.keys config.definitionFields).Sublist ["type", "config"] := by
  cases config with
  | none =>
    show ["type"].Sublist _
    decide
  | _ => exact List.Sublist.refl _

/-- **A configuration in a definition is read back.** -/
theorem ofDefinition?_definitionFields {config : SourceConfig} (valid : config.Valid) :
    ofDefinition? (.object config.definitionFields) = some config := by
  have back := ofFields?_fields valid
  have distinct := config.keys_definitionFields.nodup (by decide)
  unfold definitionFields at distinct ⊢
  rw [ofDefinition?, Json.spread?_object distinct]
  simp only [Option.bind_eq_bind, Option.bind_some, SourceKind.ofTypeName?_typeName]
  cases config with
  | none => rfl
  | _ => exact back

/-- Settings that are read are valid. -/
theorem valid_of_ofFields? {kind : SourceKind} {value : Json} {config : SourceConfig}
    (read : ofFields? kind value = some config) : config.Valid := by
  cases kind with
  | function =>
    obtain ⟨record, -, read⟩ := Option.bind_eq_some_iff.mp read
    obtain ⟨functionName, -, read⟩ := Option.bind_eq_some_iff.mp read
    obtain ⟨target, found, same⟩ := Option.bind_eq_some_iff.mp read
    cases same
    exact FunctionTarget.valid_of_ofJson? found
  | none =>
    unfold ofFields? at read
    dsimp only at read
    split at read
    · cases read
    · cases read
      trivial
  | _ =>
    obtain ⟨content, -, same⟩ := Option.map_eq_some_iff.mp read
    cases same
    trivial

theorem valid_of_ofDefinition? {value : Json} {config : SourceConfig}
    (read : ofDefinition? value = some config) : config.Valid := by
  obtain ⟨⟨type, rest⟩, -, read⟩ := Option.bind_eq_some_iff.mp read
  obtain ⟨kind, -, read⟩ := Option.bind_eq_some_iff.mp read
  split at read
  · cases read
    trivial
  · obtain ⟨record, -, read⟩ := Option.bind_eq_some_iff.mp read
    obtain ⟨field, -, read⟩ := Option.bind_eq_some_iff.mp read
    exact valid_of_ofFields? read

theorem readable_fields {config : SourceConfig} (valid : config.Valid) :
    ∀ field ∈ config.fields, Json.Readable 1 field.2 := by
  cases config with
  | function functionName target =>
    exact List.forall_mem_cons.mpr ⟨.string functionName, target.readable_fields valid⟩
  | kvTable content | http content | search content | relational content =>
    exact List.forall_mem_singleton.mpr (.string content)
  | none => exact fun _ member => absurd member List.not_mem_nil

theorem readable_json {config : SourceConfig} (valid : config.Valid) :
    Json.Readable 2 config.json :=
  .object ((config.keys_fields.cons_cons "kind").nodup (by decide))
    (List.forall_mem_cons.mpr ⟨.string _, readable_fields valid⟩)

theorem readable_definitionFields {config : SourceConfig} (valid : config.Valid) :
    ∀ field ∈ config.definitionFields, Json.Readable 2 field.2 := by
  have settings : Json.Readable 2 (.object config.fields) :=
    .object config.nodup_keys_fields (readable_fields valid)
  refine List.forall_mem_cons.mpr ⟨.string _, ?_⟩
  cases config with
  | none => exact fun _ member => absurd member List.not_mem_nil
  | _ => exact List.forall_mem_singleton.mpr settings

end SourceConfig

/-! ### Data sources -/

namespace DataSource

/-- Whether the time for a call is a 64-bit number and the configuration is valid. -/
structure Valid (source : DataSource) : Prop where
  timeout : ∀ ms ∈ source.timeoutMs, (ms : Int) ≤ Json.maxNat
  config : source.config.Valid

variable {source : DataSource}

/-- The fields of a bound data source. -/
theorem json_eq (source : DataSource) :
    source.json = .object [("name", .string source.name),
      ("timeout_ms", Json.ofOption (source.timeoutMs.map fun ms : Nat => Json.int ms)),
      ("config", source.config.json)] := by
  unfold json
  cases source.timeoutMs <;> rfl

/-- **A bound data source is read back.** -/
theorem ofJson?_json (valid : source.Valid) : ofJson? source.json = some source := by
  obtain ⟨fields, shape⟩ : ∃ fields : Dict Json, source.json = .object fields := ⟨_, rfl⟩
  rw [shape]
  rw [json_eq] at shape
  have distinct : (Dict.keys fields).Nodup := by
    cases shape
    show ["name", "timeout_ms", "config"].Nodup
    decide
  have name : fields.get? "name" = some (.string source.name) := by
    cases shape
    rfl
  have timeout : fields.get? "timeout_ms" =
      some (Json.ofOption (source.timeoutMs.map fun ms : Nat => Json.int ms)) := by
    cases shape
    rfl
  have config : fields.get? "config" = some source.config.json := by
    cases shape
    rfl
  rw [ofJson?, Json.Record.ofJson?_object _ distinct]
  simp [Json.Record.required, name, config, Json.string?,
    Json.Record.optional_natOrNull timeout valid.timeout, SourceConfig.ofJson?_json valid.config]

theorem readable_json (valid : source.Valid) : Json.Readable 3 source.json := by
  rw [json_eq]
  refine .object (show ["name", "timeout_ms", "config"].Nodup by decide) ?_
  rw [List.forall_mem_cons, List.forall_mem_cons, List.forall_mem_singleton]
  refine ⟨.string _, .ofOption ?_, SourceConfig.readable_json valid.config⟩
  intro found member
  obtain ⟨ms, known, rfl⟩ := Option.map_eq_some_iff.mp member
  exact .nat (valid.timeout ms known)

/-- The fields of a data source in a definition. -/
theorem definitionJson_eq (source : DataSource) :
    source.definitionJson = .object (("name", .string source.name) ::
      (optionalField "timeoutMs" (source.timeoutMs.map fun ms : Nat => Json.int ms) ++
        source.config.definitionFields)) := by
  unfold definitionJson
  cases source.timeoutMs <;> rfl

theorem nodup_definitionFields (source : DataSource) (timeout : Option Json) :
    (Dict.keys (("name", Json.string source.name) ::
      (optionalField "timeoutMs" timeout ++ source.config.definitionFields))).Nodup := by
  refine List.Nodup.sublist (List.Sublist.cons_cons "name" ?_)
    (show ["name", "timeoutMs", "type", "config"].Nodup by decide)
  show (Dict.keys (_ ++ _)).Sublist _
  rw [Dict.keys_append]
  exact (keys_optionalField _ _).append source.config.keys_definitionFields

/-- **A data source in a definition is read back.** -/
theorem ofDefinition?_definitionJson (valid : source.Valid) :
    ofDefinition? source.definitionJson = some source := by
  obtain ⟨fields, shape⟩ : ∃ fields : Dict Json, source.definitionJson = .object fields :=
    ⟨_, rfl⟩
  rw [shape]
  rw [definitionJson_eq] at shape
  have distinct : (Dict.keys fields).Nodup := by
    cases shape
    exact nodup_definitionFields source _
  have name : fields.get? "name" = some (.string source.name) := by
    cases shape
    rfl
  have other : ∀ key, key ∉ ["type", "config"] →
      Dict.get? source.config.definitionFields key = none := by
    intro key unknown
    refine (Dict.get?_eq_none_iff _ key).mpr fun member => unknown ?_
    exact source.config.keys_definitionFields.subset member
  have timeout : fields.get? "timeoutMs" =
      source.timeoutMs.map fun ms : Nat => Json.int ms := by
    cases shape
    simp [Dict.get?_append, Dict.get?_cons, get?_optionalField, other]
  have rest : fields.filter (fun field => field.1 != "name" && field.1 != "timeoutMs") =
      source.config.definitionFields := by
    cases shape
    cases source.timeoutMs <;> cases source.config <;> rfl
  rw [ofDefinition?, Json.Record.ofObject?_object _ distinct]
  simp [Json.Record.required, name, Json.string?, Json.Record.optional_nat timeout valid.timeout,
    rest, SourceConfig.ofDefinition?_definitionFields valid.config]

theorem readable_definitionJson (valid : source.Valid) :
    Json.Readable 3 source.definitionJson := by
  rw [definitionJson_eq]
  refine .object (nodup_definitionFields source _) (List.forall_mem_cons.mpr ⟨.string _, ?_⟩)
  rw [List.forall_mem_append]
  refine ⟨?_, SourceConfig.readable_definitionFields valid.config⟩
  exact readable_optionalField "timeoutMs" fun ms known => .nat (valid.timeout ms known)

/-- A data source that is read in a definition is valid. -/
theorem valid_of_ofDefinition? {value : Json} (read : ofDefinition? value = some source) :
    source.Valid := by
  obtain ⟨record, -, read⟩ := Option.bind_eq_some_iff.mp read
  obtain ⟨name, -, read⟩ := Option.bind_eq_some_iff.mp read
  obtain ⟨timeout, bounded, read⟩ := Option.bind_eq_some_iff.mp read
  obtain ⟨config, found, same⟩ := Option.bind_eq_some_iff.mp read
  cases same
  exact ⟨Json.Record.le_maxNat_of_optional bounded, SourceConfig.valid_of_ofDefinition? found⟩

end DataSource

end FieldResolver
