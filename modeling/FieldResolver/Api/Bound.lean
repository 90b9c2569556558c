/-
**APIs ready to run.**

A bound API has data sources with distinct names and at most one resolver for a field of a type.
-/

import FieldResolver.Api.DataSource
import FieldResolver.Api.Resolver

namespace FieldResolver

/-- What there may only be one of. -/
inductive Duplicate where
  | dataSource (name : String)
  | resolver (typeName field : String)
deriving DecidableEq

/-- The wording of a duplicate. -/
def Duplicate.message : Duplicate → String
  | .dataSource name => "duplicate data source: " ++ name
  | .resolver typeName field => s!"duplicate resolver for {typeName}.{field}"

/-- Data sources with distinct names. -/
abbrev SourceRegistry := List DataSource

namespace SourceRegistry

/-- The data source of a name. -/
def find? (registry : SourceRegistry) (name : String) : Option DataSource :=
  List.find? (fun source => source.name == name) registry

/-- Whether there is a data source of a name. -/
def contains (registry : SourceRegistry) (name : String) : Bool := (registry.find? name).isSome

/-- Adds a data source. -/
def add (registry : SourceRegistry) (source : DataSource) : Except Duplicate SourceRegistry :=
  if registry.contains source.name then .error (.dataSource source.name)
  else .ok (registry ++ [source])

/-- The registry of data sources. -/
def ofSources (sources : List DataSource) : Except Duplicate SourceRegistry := sources.foldlM add []

end SourceRegistry

/-- An API ready to run. -/
structure Api where
  name : String
  defaultTimeoutMs : Option Nat := none
  sources : SourceRegistry
  resolvers : List Resolver := []

namespace Api

/-- The resolver of a field of a type. -/
def resolver? (api : Api) (typeName field : String) : Option Resolver :=
  api.resolvers.find? fun resolver => resolver.typeName == typeName && resolver.field == field

/-- Adds a resolver. -/
def addResolver (api : Api) (resolver : Resolver) : Except Duplicate Api :=
  if (api.resolver? resolver.typeName resolver.field).isSome then
    .error (.resolver resolver.typeName resolver.field)
  else .ok { api with resolvers := api.resolvers ++ [resolver] }

end Api

end FieldResolver
