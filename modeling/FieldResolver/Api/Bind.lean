/-
**Binding a definition.**

Binding checks that every name refers to something, loads the templates and gives an API ready to
run. Data sources come first, then functions, then resolvers, each in the order of the definition;
the first error is the one reported. Whether two resolvers belong to one field is checked last.
-/

import FieldResolver.Api.Bound
import FieldResolver.Api.Definition
import FieldResolver.Api.Location

namespace FieldResolver

/-- Why a definition cannot be bound. -/
inductive BindError where
  | unknownDataSource (owner dataSource : String)
  | unknownFunction (owner function : String)
  | missingDataSource (owner : String)
  | emptyPipeline (owner : String)
  | duplicateFunction (name : String)
  | template (path cause : String)
  | duplicate (cause : Duplicate)
deriving DecidableEq

/-- The wording of an error. -/
def BindError.message : BindError → String
  | .unknownDataSource owner dataSource =>
    s!"{owner} references unknown data source '{dataSource}'"
  | .unknownFunction owner function => s!"{owner} references unknown function '{function}'"
  | .missingDataSource owner => s!"unit resolver {owner} has no data source"
  | .emptyPipeline owner => s!"pipeline resolver {owner} has no functions"
  | .duplicateFunction name => "duplicate function: " ++ name
  | .template path cause => s!"failed to read template {path}: {cause}"
  | .duplicate cause => cause.message

namespace Definition

/-- Gives the text of a template. -/
abbrev Loader := TemplateSource → Except BindError String

/-- A loader that reads files below a directory; `read` gives a file's text or why there is none. -/
def loaderBelow (directory : String) (read : String → Except String String) : Loader
  | .inline text => .ok text
  | .file path =>
    let path := Location.template directory path
    (read path).mapError (.template path)

section

variable (load : Loader)

/-- The text of a template that may be missing. -/
def loadOptional : Option TemplateSource → Except BindError (Option String)
  | some source => (load source).map some
  | none => .ok none

/-- Checks that there is a data source. -/
def checkSource (registry : SourceRegistry) (owner dataSource : String) : Except BindError Unit :=
  if registry.contains dataSource then .ok () else .error (.unknownDataSource owner dataSource)

/-- The stage of a function. -/
def bindFunction (registry : SourceRegistry) (function : FunctionDefinition) :
    Except BindError Stage := do
  checkSource registry function.name function.dataSource
  let request ← loadOptional load function.request
  let response ← loadOptional load function.response
  return { name := function.name, dataSource := function.dataSource, request, response }

/-- Binds a function that must not have the name of an earlier one. -/
def addFunction (registry : SourceRegistry) (functions : Dict Stage)
    (function : FunctionDefinition) : Except BindError (Dict Stage) := do
  if functions.contains function.name then .error (.duplicateFunction function.name)
  else return functions.insert function.name (← bindFunction load registry function)

/-- The stage that a function's name stands for. -/
def stageOf (functions : Dict Stage) (owner name : String) : Except BindError Stage :=
  match functions.get? name with
  | some stage => .ok stage
  | none => .error (.unknownFunction owner name)

/-- The resolver of an entry. -/
def bindResolver (registry : SourceRegistry) (functions : Dict Stage) (entry : ResolverEntry) :
    Except BindError Resolver := do
  let request ← loadOptional load entry.request
  let response ← loadOptional load entry.response
  match entry.shape with
  | .unit =>
    match entry.dataSource with
    | none => .error (.missingDataSource entry.owner)
    | some dataSource =>
      checkSource registry entry.owner dataSource
      return { typeName := entry.typeName, field := entry.field
               plan := .unit { name := entry.owner, dataSource, request, response } }
  | .pipeline =>
    if entry.functions.isEmpty then .error (.emptyPipeline entry.owner)
    else
      let stages ← entry.functions.mapM (stageOf functions entry.owner)
      return { typeName := entry.typeName, field := entry.field
               plan := .pipeline request stages response }

/-- The API of a definition. -/
def bind (definition : Definition) : Except BindError Api := do
  let registry ← (SourceRegistry.ofSources definition.dataSources).mapError .duplicate
  let functions ← definition.functions.foldlM (addFunction load registry) []
  let resolvers ← definition.resolvers.mapM (bindResolver load registry functions)
  let api : Api :=
    { name := definition.name, defaultTimeoutMs := definition.defaultTimeoutMs
      sources := registry }
  (resolvers.foldlM Api.addResolver api).mapError .duplicate

end

/-- The files that the templates of a definition are in. -/
def templateFiles (definition : Definition) : List String :=
  let sources := definition.functions.flatMap (fun function =>
      [function.request, function.response]) ++
    definition.resolvers.flatMap fun entry => [entry.request, entry.response]
  sources.filterMap fun
    | some (.file path) => some path
    | _ => none

end Definition

end FieldResolver
