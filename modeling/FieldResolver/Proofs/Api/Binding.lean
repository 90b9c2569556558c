/-
**Which definitions can be bound.**

Binding accepts a definition just when its names are distinct, its references lead to something that
it defines and its templates have texts. The order in which binding looks at these things decides
which error is reported, not whether there is one.

* `Definition.Bindable`: the conditions, said without binding;
* `Definition.exists_bind_iff`, `Definition.boundTo_of_bind`: binding accepts just these
  definitions, and what the API holds;
* `Dispatcher.reports_of_invoke`: a data source that there is is not missed;
* `Definition.bind_bindable`: both together, for every stage of every resolver.
-/

import FieldResolver.Dispatch.Dispatcher
import FieldResolver.Proofs.Api.Parts

namespace FieldResolver

open Fallible

/-! ### Definitions -/

namespace Definition

/-- The templates of a definition. -/
def templates (definition : Definition) : List TemplateSource :=
  definition.functions.flatMap (fun function =>
      function.request.toList ++ function.response.toList) ++
    definition.resolvers.flatMap fun entry => entry.request.toList ++ entry.response.toList

/-- The names of the data sources of a definition. -/
def sourceNames (definition : Definition) : List String :=
  definition.dataSources.map DataSource.name

/-- The names of the functions of a definition. -/
def functionNames (definition : Definition) : List String :=
  definition.functions.map FunctionDefinition.name

/-- What the name of a function stands for. -/
def Stands (load : Loader) (definition : Definition) (name : String) (stage : Stage) : Prop :=
  ∃ function ∈ definition.functions, function.name = name ∧
    StageOf load definition.sourceNames function stage

/-- A definition whose names are distinct, whose references lead to something in it and whose
templates have texts. -/
structure Bindable (load : Loader) (definition : Definition) : Prop where
  sources_distinct : definition.sourceNames.Nodup
  functions_distinct : definition.functionNames.Nodup
  function_sources : ∀ function ∈ definition.functions,
    function.dataSource ∈ definition.sourceNames
  texts : ∀ source ∈ definition.templates, ∃ text, load source = .ok text
  unit_sources : ∀ entry ∈ definition.resolvers, entry.shape = .unit →
    ∃ name ∈ entry.dataSource, name ∈ definition.sourceNames
  pipelines : ∀ entry ∈ definition.resolvers, entry.shape = .pipeline →
    entry.functions ≠ [] ∧ ∀ name ∈ entry.functions, name ∈ definition.functionNames
  fields_distinct : (definition.resolvers.map fun entry => (entry.typeName, entry.field)).Nodup

section

variable {load : Loader} {definition : Definition}

theorem texts_iff :
    (∀ source ∈ definition.templates, ∃ text, load source = .ok text) ↔
      (∀ function ∈ definition.functions, HasText load function.request ∧
        HasText load function.response) ∧
      ∀ entry ∈ definition.resolvers, HasText load entry.request ∧ HasText load entry.response := by
  simp only [templates, HasText, List.mem_append, List.mem_flatMap, Option.mem_toList]
  constructor
  · intro all
    refine ⟨fun function member => ⟨fun template here => ?_, fun template here => ?_⟩,
      fun entry member => ⟨fun template here => ?_, fun template here => ?_⟩⟩
    · exact all template (.inl ⟨function, member, .inl here⟩)
    · exact all template (.inl ⟨function, member, .inr here⟩)
    · exact all template (.inr ⟨entry, member, .inl here⟩)
    · exact all template (.inr ⟨entry, member, .inr here⟩)
  · rintro ⟨functions, entries⟩ template (⟨function, member, here | here⟩ |
      ⟨entry, member, here | here⟩)
    · exact (functions function member).1 template here
    · exact (functions function member).2 template here
    · exact (entries entry member).1 template here
    · exact (entries entry member).2 template here

/-- The conditions in the order in which binding looks at them. -/
theorem bindable_iff :
    Bindable load definition ↔
      definition.sourceNames.Nodup ∧
      (definition.functionNames.Nodup ∧
        ∀ function ∈ definition.functions, FunctionFits load definition.sourceNames function) ∧
      (∀ entry ∈ definition.resolvers,
        EntryFits load definition.sourceNames definition.functionNames entry) ∧
      (definition.resolvers.map fun entry => (entry.typeName, entry.field)).Nodup := by
  constructor
  · rintro ⟨sources, functions, known, texts, units, pipelines, fields⟩
    obtain ⟨ofFunctions, ofEntries⟩ := texts_iff.mp texts
    refine ⟨sources, ⟨functions, fun function member => ?_⟩, fun entry member => ?_, fields⟩
    · exact ⟨known function member, (ofFunctions function member).1,
        (ofFunctions function member).2⟩
    · exact ⟨(ofEntries entry member).1, (ofEntries entry member).2, units entry member,
        fun shape => (pipelines entry member shape).1,
        fun shape => (pipelines entry member shape).2⟩
  · rintro ⟨sources, ⟨functions, functionsFit⟩, entriesFit, fields⟩
    refine ⟨sources, functions, fun function member => (functionsFit function member).source,
      texts_iff.mpr ⟨fun function member => ?_, fun entry member => ?_⟩,
      fun entry member => (entriesFit entry member).source,
      fun entry member shape => ⟨(entriesFit entry member).nonempty shape,
        (entriesFit entry member).functions shape⟩, fields⟩
    · exact ⟨(functionsFit function member).request, (functionsFit function member).response⟩
    · exact ⟨(entriesFit entry member).request, (entriesFit entry member).response⟩

/-- The API of a definition before there are resolvers. -/
def withoutResolvers (definition : Definition) : Api :=
  { name := definition.name, defaultTimeoutMs := definition.defaultTimeoutMs
    sources := definition.dataSources }

/-- The three lists that binding goes through. -/
theorem bind_ok_iff {api : Api} :
    definition.bind load = .ok api ↔
      definition.sourceNames.Nodup ∧ ∃ functions resolvers,
        definition.functions.foldlM (addFunction load definition.dataSources) [] = .ok functions ∧
        definition.resolvers.mapM (bindResolver load definition.dataSources functions) =
          .ok resolvers ∧
        resolvers.foldlM Api.addResolver definition.withoutResolvers = .ok api := by
  constructor
  · intro done
    obtain ⟨registry, sources, done⟩ := bind_ok done
    obtain ⟨functions, functionsDone, done⟩ := bind_ok done
    obtain ⟨resolvers, resolversDone, done⟩ := bind_ok done
    obtain ⟨rfl, distinct⟩ := SourceRegistry.ofSources_ok_iff.mp (mapError_ok sources)
    exact ⟨distinct, functions, resolvers, functionsDone, resolversDone, mapError_ok done⟩
  · rintro ⟨distinct, functions, resolvers, functionsDone, resolversDone, done⟩
    have sources := SourceRegistry.ofSources_ok_iff.mpr ⟨rfl, distinct⟩
    rw [bind, sources]
    change (definition.functions.foldlM (addFunction load definition.dataSources) [] >>= _) = _
    rw [functionsDone]
    change (definition.resolvers.mapM (bindResolver load definition.dataSources functions) >>= _)
      = _
    rw [resolversDone]
    change (resolvers.foldlM Api.addResolver definition.withoutResolvers).mapError _ = _
    rw [done]
    rfl

/-- What a function's name leads to while resolvers are bound is what it stands for. -/
theorem stands_of_get? {functions : Dict Stage}
    (done : definition.functions.foldlM (addFunction load definition.dataSources) [] =
      .ok functions) {name : String} {stage : Stage} (found : functions.get? name = some stage) :
    definition.Stands load name stage := by
  obtain ⟨function, member, named, bound⟩ :=
    (functionsOf_of_foldlM done).bound _ (Dict.mem_of_get? found)
  exact ⟨function, member, named, bindFunction_ok_iff.mp bound⟩

/-- The fields of the resolvers are those of the entries, one after another. -/
theorem fields_of_forall₂ {sources : List String} {stands : String → Stage → Prop}
    {entries : List ResolverEntry} {resolvers : List Resolver}
    (all : List.Forall₂ (ResolverOf load sources stands) entries resolvers) :
    resolvers.map (fun resolver => (resolver.typeName, resolver.field)) =
      entries.map fun entry => (entry.typeName, entry.field) := by
  induction all with
  | nil => rfl
  | cons here _ ih => rw [List.map_cons, List.map_cons, here.typeName, here.field, ih]

/-- What binding a definition gives. -/
structure BoundTo (load : Loader) (definition : Definition) (api : Api) : Prop where
  name : api.name = definition.name
  defaultTimeoutMs : api.defaultTimeoutMs = definition.defaultTimeoutMs
  sources : api.sources = definition.dataSources
  resolvers : List.Forall₂ (ResolverOf load definition.sourceNames (definition.Stands load))
    definition.resolvers api.resolvers
  distinct : api.places.Nodup

theorem ResolverOf.imp {sources : List String} {first second : String → Stage → Prop}
    {entry : ResolverEntry} {resolver : Resolver}
    (weaker : ∀ {name stage}, first name stage → second name stage)
    (resolverOf : ResolverOf load sources first entry resolver) :
    ResolverOf load sources second entry resolver := by
  obtain ⟨resolverType, resolverField, plan⟩ := resolver
  obtain ⟨typeName, field, plan⟩ := resolverOf
  refine ⟨typeName, field, ?_⟩
  cases plan with
  | unit shape name dataSource known request response =>
    exact .unit shape name dataSource known request response
  | pipeline shape nonempty each request response =>
    exact .pipeline shape nonempty (each.imp fun _ _ => weaker) request response

theorem boundTo_of_bind {api : Api} (done : definition.bind load = .ok api) :
    BoundTo load definition api := by
  obtain ⟨-, functions, resolvers, functionsDone, resolversDone, done⟩ := bind_ok_iff.mp done
  have all : List.Forall₂ (ResolverOf load definition.sourceNames (definition.Stands load))
      definition.resolvers resolvers :=
    (forall₂_of_mapM resolversDone).imp fun _ _ bound =>
      (bindResolver_ok_iff.mp bound).imp (stands_of_get? functionsDone)
  have distinct := (Api.exists_foldlM_addResolver_iff rfl).mp ⟨api, done⟩
  rw [Api.foldlM_addResolver done]
  exact ⟨rfl, rfl, rfl, all, distinct⟩

/-- Binding accepts just the definitions that meet the conditions. -/
theorem exists_bind_iff :
    (∃ api, definition.bind load = .ok api) ↔ Bindable load definition := by
  rw [bindable_iff]
  constructor
  · rintro ⟨api, done⟩
    have bound := boundTo_of_bind done
    obtain ⟨sources, functions, resolvers, functionsDone, resolversDone, done⟩ :=
      bind_ok_iff.mp done
    refine ⟨sources, exists_foldlM_addFunction_iff.mp ⟨functions, functionsDone⟩,
      fun entry member => ?_, ?_⟩
    · rw [functionNames, ← (functionsOf_of_foldlM functionsDone).names]
      exact exists_bindResolver_iff.mp
        (exists_mapM_ok_iff.mp ⟨resolvers, resolversDone⟩ entry member)
    · rw [← fields_of_forall₂ bound.resolvers]
      exact bound.distinct
  · rintro ⟨sources, functionsFit, entriesFit, fields⟩
    obtain ⟨functions, functionsDone⟩ := exists_foldlM_addFunction_iff.mpr functionsFit
    rw [functionNames, ← (functionsOf_of_foldlM functionsDone).names] at entriesFit
    obtain ⟨resolvers, resolversDone⟩ := exists_mapM_ok_iff.mpr fun entry member =>
      exists_bindResolver_iff.mpr (entriesFit entry member)
    have all := (forall₂_of_mapM resolversDone).imp fun _ _ => bindResolver_ok_iff.mp
    rw [← fields_of_forall₂ all] at fields
    have empty : definition.withoutResolvers.resolvers = [] := rfl
    obtain ⟨api, done⟩ := (Api.exists_foldlM_addResolver_iff empty).mpr fields
    exact ⟨api, bind_ok_iff.mpr ⟨sources, functions, resolvers, functionsDone, resolversDone, done⟩⟩

end

end Definition

/-! ### Sending requests to data sources that there are -/

namespace Dispatcher

variable {dispatcher : Dispatcher} {source : DataSource} {request : Json} {state : ServiceState}

/-- A failure that a backend itself reports. -/
def Reports (dispatcher : Dispatcher) (source : DataSource) (request : Json) (state : ServiceState)
    (failure : CallFailure) : Prop :=
  ∃ backend error, dispatcher.backend? source.kind = some backend ∧
    (backend.serve dispatcher.services source (dispatcher.timeoutOf source) request state).1.content
      = .error error ∧
    error.failure = failure

/-- A caller who gives up gets no failure. -/
theorem failure_of_withCancellation {cancelAfter : Option Nat} {reply : Timed Reply}
    {failure : CallFailure}
    (failed : (withCancellation cancelAfter reply).content = .failure failure) :
    reply.content = .failure failure := by
  unfold withCancellation at failed
  split at failed
  · split at failed
    · cases failed
    · exact failed
  · exact failed

/-- A call fails with the backend's own error, or the backend broke down, or it took too long. -/
theorem failure_of_settle {timeoutMs : Nat} {result : Timed CallResult} {failure : CallFailure}
    (failed : (settle source timeoutMs result).content = .failure failure) :
    (∃ error, result.content = .error error ∧ error.failure = failure) ∨
      (∃ text, failure = brokenDown source.kind text) ∨ failure = timedOut source timeoutMs := by
  unfold settle at failed
  split at failed
  · cases content : result.content with
    | value value => simp [replyOf, content] at failed
    | error error =>
      simp only [replyOf, content, Reply.failure.injEq] at failed
      exact .inl ⟨error, rfl, failed⟩
    | crashed text =>
      simp only [replyOf, content, Reply.failure.injEq] at failed
      exact .inr (.inl ⟨text, failed.symm⟩)
  · cases failed
    exact .inr (.inr rfl)

theorem noBackend_kind (name : String) : (noBackend source).kind ≠ (notRegistered name).kind := by
  change "DataSourceMisconfigured" ≠ "DataSourceNotFound"
  decide

theorem timedOut_kind (timeoutMs : Nat) (name : String) :
    (timedOut source timeoutMs).kind ≠ (notRegistered name).kind := by
  change "ExecutionTimeout" ≠ "DataSourceNotFound"
  decide

theorem brokenDown_kind (kind : SourceKind) (text : Option String) (name : String) :
    (brokenDown kind text).kind ≠ (notRegistered name).kind := by
  cases kind with
  | function => exact show FunctionError.unhandled ≠ "DataSourceNotFound" by decide
  | _ => exact show "InternalFailure" ≠ "DataSourceNotFound" by decide

/-- A request to a data source that there is fails because there is none only if its backend
reports just that. -/
theorem reports_of_invoke {name : String} (found : dispatcher.sources.find? name = some source)
    {cancelAfter : Option Nat} {failure : CallFailure}
    (failed : (dispatcher.invoke name request cancelAfter state).1.content = .failure failure)
    (missing : failure.kind = (notRegistered name).kind) :
    dispatcher.Reports source request state failure := by
  unfold invoke at failed
  simp only [found] at failed
  split at failed
  · cases failed
    exact absurd missing (noBackend_kind name)
  · rename_i backend served
    split at failed
    · cases failed
    · obtain ⟨error, reported, same⟩ | ⟨text, rfl⟩ | rfl :=
        failure_of_settle (failure_of_withCancellation failed)
      · exact ⟨backend, error, served, reported, same⟩
      · exact absurd missing (brokenDown_kind source.kind text name)
      · exact absurd missing (timedOut_kind (dispatcher.timeoutOf source) name)

end Dispatcher

namespace Definition

/-- Every stage of a resolver calls one of the data sources. -/
theorem known_of_mem_stages {load : Loader} {definition : Definition} {entry : ResolverEntry}
    {resolver : Resolver}
    (resolverOf : ResolverOf load definition.sourceNames (definition.Stands load) entry resolver)
    {stage : Stage} (member : stage ∈ resolver.plan.stages) :
    stage.dataSource ∈ definition.sourceNames := by
  obtain ⟨resolverType, resolverField, plan⟩ := resolver
  cases resolverOf.plan with
  | unit _ _ _ known =>
    rw [List.mem_singleton.mp member]
    exact known
  | pipeline _ _ each =>
    obtain ⟨name, -, function, -, -, stageOf⟩ := exists_of_mem_right each member
    exact stageOf.known

/-- Binding accepts a definition just when its names are distinct, its references lead to something
in it and its templates have texts. The API then has a resolver for every entry under the entry's
type and field, and sending a request to the data source of any of its stages finds that data
source. -/
theorem bind_bindable (load : Loader) (definition : Definition) :
    ((∃ api, definition.bind load = .ok api) ↔ Bindable load definition) ∧
      ∀ api, definition.bind load = .ok api →
        (∀ entry ∈ definition.resolvers, ∃ resolver,
          api.resolver? entry.typeName entry.field = some resolver ∧
            ResolverOf load definition.sourceNames (definition.Stands load) entry resolver) ∧
        ∀ typeName field resolver, api.resolver? typeName field = some resolver →
          ∀ stage ∈ resolver.plan.stages, ∃ source,
            SourceRegistry.find? api.sources stage.dataSource = some source ∧
            source ∈ definition.dataSources ∧
            ∀ dispatcher : Dispatcher, dispatcher.sources = api.sources →
              ∀ request cancelAfter state failure,
                (dispatcher.invoke stage.dataSource request cancelAfter state).1.content =
                  .failure failure →
                failure.kind = "DataSourceNotFound" →
                dispatcher.Reports source request state failure := by
  refine ⟨exists_bind_iff, fun api done => ?_⟩
  have bound := boundTo_of_bind done
  constructor
  · intro entry member
    obtain ⟨resolver, inApi, resolverOf⟩ := exists_of_mem_left bound.resolvers member
    have found := Api.resolver?_of_mem bound.distinct inApi
    rw [resolverOf.typeName, resolverOf.field] at found
    exact ⟨resolver, found, resolverOf⟩
  · intro typeName field resolver found stage member
    obtain ⟨entry, -, resolverOf⟩ :=
      exists_of_mem_right bound.resolvers (List.mem_of_find?_eq_some found)
    obtain ⟨source, inSources, leads, -⟩ :=
      SourceRegistry.exists_find? (known_of_mem_stages resolverOf member)
    refine ⟨source, bound.sources ▸ leads, inSources, ?_⟩
    intro dispatcher same request cancelAfter state failure failed missing
    refine Dispatcher.reports_of_invoke ?_ failed missing
    rw [same, bound.sources]
    exact leads

end Definition

/-! ### A field with one call and a field with two -/

namespace Blog

open Definition

/-- A unit resolver and a pipeline that runs one function twice. -/
def definition : Definition where
  name := "blog"
  dataSources := [{ name := "local", config := .none }]
  functions := [{ name := "load", dataSource := "local", request := some (.inline "null") }]
  resolvers :=
    [{ typeName := "Query", field := "post", dataSource := some "local" },
      { typeName := "Query", field := "posts", shape := .pipeline, functions := ["load", "load"] }]

/-- Knows no files. -/
def load : Loader
  | .inline text => .ok text
  | .file path => .error (.template path "no such file")

/-- The stage of the function. -/
def stage : Stage := { name := "load", dataSource := "local", request := some "null" }

/-- The resolver of the pipeline. -/
def posts : Resolver :=
  { typeName := "Query", field := "posts", plan := .pipeline none [stage, stage] none }

/-- The API of the definition. -/
def api : Api where
  name := "blog"
  sources := [{ name := "local", config := .none }]
  resolvers :=
    [{ typeName := "Query", field := "post"
       plan := .unit { name := "Query.post", dataSource := "local" } }, posts]

theorem bind_definition : definition.bind load = .ok api := rfl

/-- What a backend may say of something else that it does not find. -/
def gone : CallError := .function (.reported "gone" (some "DataSourceNotFound") .null)

/-- A backend that says so of every request, and services that are never used. -/
def dispatcher : Dispatcher where
  sources := api.sources
  backend? := fun _ => some (.custom fun _ _ => { content := .error gone })
  services :=
    { launcher := fun _ => .error "no processes here"
      transport := fun _ => .error "no network here"
      database :=
        { connect := fun _ => .error "no database here"
          run := fun _ _ => .error "no database here" } }

theorem invoke_stage :
    (dispatcher.invoke stage.dataSource .null none {}).1.content = .failure gone.failure := rfl

/-- The pipeline is found with its two stages, and the only failure of that kind is the backend's
own. -/
theorem bound :
    Bindable load definition ∧
      (∃ resolver, api.resolver? "Query" "posts" = some resolver ∧
        ResolverOf load ["local"] (definition.Stands load)
          { typeName := "Query", field := "posts", shape := .pipeline
            functions := ["load", "load"] } resolver) ∧
      ∃ source ∈ definition.dataSources, dispatcher.Reports source .null {} gone.failure := by
  obtain ⟨accepts, gives⟩ := bind_bindable load definition
  obtain ⟨resolvers, sends⟩ := gives api bind_definition
  obtain ⟨source, -, inSources, reports⟩ :=
    sends "Query" "posts" posts rfl stage List.mem_cons_self
  exact ⟨accepts.mp ⟨api, bind_definition⟩, resolvers _ (List.mem_cons_of_mem _ List.mem_cons_self),
    source, inSources, reports dispatcher rfl .null none {} gone.failure invoke_stage rfl⟩

end Blog

end FieldResolver
