/-
**What binding makes of the parts of a definition.**

Binding goes through data sources, functions and resolvers one after another. For each of these this
module says when an item is accepted, what it is turned into and when a whole list is accepted.

* `SourceRegistry.ofSources_ok_iff`: data sources with distinct names are a registry as they are;
* `Definition.bindFunction_ok_iff`, `exists_foldlM_addFunction_iff`: functions;
* `Definition.bindResolver_ok_iff`, `exists_bindResolver_iff`: resolvers;
* `Api.exists_foldlM_addResolver_iff`, `Api.resolver?_of_mem`: the resolvers of an API.
-/

import FieldResolver.Api.Bind
import FieldResolver.Proofs.Dict
import FieldResolver.Proofs.Fallible

namespace FieldResolver

open Fallible

/-! ### Data sources -/

namespace SourceRegistry

/-- The names of data sources. -/
def names (registry : SourceRegistry) : List String := registry.map DataSource.name

theorem contains_iff {registry : SourceRegistry} {name : String} :
    contains registry name = true ↔ name ∈ names registry := by
  simp [contains, find?, names, List.find?_isSome]

/-- A name of a data source leads to one of that name. -/
theorem exists_find? {registry : SourceRegistry} {name : String}
    (known : name ∈ names registry) :
    ∃ source ∈ registry, find? registry name = some source ∧ source.name = name := by
  obtain ⟨source, found⟩ := Option.isSome_iff_exists.mp (contains_iff.mpr known)
  have named := List.find?_some (p := fun source : DataSource => source.name == name) found
  exact ⟨source, List.mem_of_find?_eq_some found, found, beq_iff_eq.mp named⟩

theorem add_ok_iff {registry after : SourceRegistry} {source : DataSource} :
    add registry source = .ok after ↔
      source.name ∉ names registry ∧ after = registry ++ [source] := by
  rw [← contains_iff, add]
  by_cases known : contains registry source.name = true
  · rw [if_pos known]
    exact ⟨fun added => absurd added nofun, fun new => absurd known new.1⟩
  · rw [if_neg known, Except.ok.injEq]
    exact ⟨fun added => ⟨known, added.symm⟩, fun new => new.2.symm⟩

/-- Data sources with distinct names are a registry as they are. -/
theorem ofSources_ok_iff {sources : List DataSource} {registry : SourceRegistry} :
    ofSources sources = .ok registry ↔ registry = sources ∧ (names sources).Nodup := by
  have accepted : (∃ last, sources.foldlM add [] = .ok last) ↔
      (names [] ++ names sources).Nodup ∧ ∀ source ∈ sources, True := by
    refine exists_foldlM_ok_iff add names DataSource.name (fun _ => True)
      (fun registry source => ?_) ?_ sources List.nodup_nil
    · simp only [add_ok_iff, exists_and_left, exists_eq, and_true]
    · intro registry source after added
      rw [(add_ok_iff.mp added).2]
      exact List.map_append
  have same {last : SourceRegistry} (done : sources.foldlM add [] = .ok last) :
      last = sources := by
    have grown := keys_of_foldlM id id
      (fun added => (add_ok_iff.mp added).2) done
    simpa using grown
  constructor
  · intro done
    exact ⟨same done, (accepted.mp ⟨registry, done⟩).1⟩
  · rintro ⟨rfl, distinct⟩
    obtain ⟨last, done⟩ := accepted.mpr ⟨distinct, fun _ _ => trivial⟩
    rwa [same done] at done

end SourceRegistry

namespace Definition

variable {load : Loader} {registry : SourceRegistry}

/-! ### Templates -/

/-- What a template that may be missing is loaded as. -/
inductive Loads (load : Loader) : Option TemplateSource → Option String → Prop where
  | missing : Loads load none none
  | found {source : TemplateSource} {text : String} (loaded : load source = .ok text) :
      Loads load (some source) (some text)

theorem loadOptional_ok_iff {source : Option TemplateSource} {text : Option String} :
    loadOptional load source = .ok text ↔ Loads load source text := by
  constructor
  · intro done
    cases source with
    | none =>
      cases done
      exact .missing
    | some source =>
      obtain ⟨found, loaded, rfl⟩ := map_ok done
      exact .found loaded
  · rintro (_ | loaded)
    · rfl
    · rw [loadOptional, loaded]
      rfl

/-- Whether a template has a text if it is not missing. -/
def HasText (load : Loader) (source : Option TemplateSource) : Prop :=
  ∀ template ∈ source, ∃ text, load template = .ok text

theorem exists_loads_iff {source : Option TemplateSource} :
    (∃ text, Loads load source text) ↔ HasText load source := by
  constructor
  · rintro ⟨_, _ | loaded⟩ template member
    · cases member
    · cases member
      exact ⟨_, loaded⟩
  · intro each
    cases source with
    | none => exact ⟨none, .missing⟩
    | some source =>
      obtain ⟨text, loaded⟩ := each source rfl
      exact ⟨some text, .found loaded⟩

/-! ### Functions -/

/-- The stage of a function: its name and its data source, which is one of those that there are,
with its templates loaded. -/
structure StageOf (load : Loader) (sources : List String) (function : FunctionDefinition)
    (stage : Stage) : Prop where
  name : stage.name = function.name
  dataSource : stage.dataSource = function.dataSource
  known : stage.dataSource ∈ sources
  request : Loads load function.request stage.request
  response : Loads load function.response stage.response

theorem checkSource_ok_iff {owner name : String} :
    checkSource registry owner name = .ok () ↔ name ∈ registry.names := by
  rw [← SourceRegistry.contains_iff, checkSource]
  split <;> simp_all

theorem bindFunction_ok_iff {function : FunctionDefinition} {stage : Stage} :
    bindFunction load registry function = .ok stage ↔
      StageOf load registry.names function stage := by
  constructor
  · intro done
    obtain ⟨_, checked, done⟩ := bind_ok done
    obtain ⟨request, first, done⟩ := bind_ok done
    obtain ⟨response, second, done⟩ := bind_ok done
    cases done
    exact ⟨rfl, rfl, checkSource_ok_iff.mp checked, loadOptional_ok_iff.mp first,
      loadOptional_ok_iff.mp second⟩
  · obtain ⟨name, dataSource, request, response⟩ := stage
    rintro ⟨rfl, rfl, known, first, second⟩
    rw [bindFunction, checkSource_ok_iff.mpr known, loadOptional_ok_iff.mpr first,
      loadOptional_ok_iff.mpr second]
    rfl

/-- Whether binding a function finds all that it needs. -/
structure FunctionFits (load : Loader) (sources : List String) (function : FunctionDefinition) :
    Prop where
  source : function.dataSource ∈ sources
  request : HasText load function.request
  response : HasText load function.response

theorem exists_bindFunction_iff {function : FunctionDefinition} :
    (∃ stage, bindFunction load registry function = .ok stage) ↔
      FunctionFits load registry.names function := by
  simp only [bindFunction_ok_iff]
  constructor
  · rintro ⟨stage, stageOf⟩
    exact ⟨stageOf.dataSource ▸ stageOf.known, exists_loads_iff.mp ⟨_, stageOf.request⟩,
      exists_loads_iff.mp ⟨_, stageOf.response⟩⟩
  · rintro ⟨known, first, second⟩
    obtain ⟨request, first⟩ := exists_loads_iff.mpr first
    obtain ⟨response, second⟩ := exists_loads_iff.mpr second
    exact ⟨{ name := function.name, dataSource := function.dataSource, request, response },
      rfl, rfl, known, first, second⟩

theorem addFunction_ok_iff {functions after : Dict Stage} {function : FunctionDefinition} :
    addFunction load registry functions function = .ok after ↔
      function.name ∉ functions.keys ∧
        ∃ stage, bindFunction load registry function = .ok stage ∧
          after = functions ++ [(function.name, stage)] := by
  rw [← Dict.get?_eq_none_iff, addFunction, Dict.contains]
  cases found : functions.get? function.name with
  | some stage => simp
  | none =>
    have appended (stage : Stage) :=
      Dict.insert_of_not_mem functions stage ((Dict.get?_eq_none_iff _ _).mp found)
    simp only [Option.isSome_none, Bool.false_eq_true, if_false, true_and]
    constructor
    · intro done
      obtain ⟨stage, bound, same⟩ := bind_ok done
      cases same
      exact ⟨stage, bound, appended stage⟩
    · rintro ⟨stage, bound, rfl⟩
      rw [bound, ← appended stage]
      rfl

/-- The functions of a definition as the stages that were bound: under their names, each of a
function. -/
structure FunctionsOf (load : Loader) (registry : SourceRegistry)
    (definitions : List FunctionDefinition) (functions : Dict Stage) : Prop where
  names : functions.keys = definitions.map FunctionDefinition.name
  bound : ∀ entry ∈ functions, ∃ function ∈ definitions, function.name = entry.1 ∧
    bindFunction load registry function = .ok entry.2

/-- Functions are bound just when no name is repeated and each fits. -/
theorem exists_foldlM_addFunction_iff {definitions : List FunctionDefinition} :
    (∃ functions, definitions.foldlM (addFunction load registry) [] = .ok functions) ↔
      (definitions.map FunctionDefinition.name).Nodup ∧
        ∀ function ∈ definitions, FunctionFits load registry.names function := by
  refine exists_foldlM_ok_iff (addFunction load registry) Dict.keys FunctionDefinition.name
    (FunctionFits load registry.names) (fun functions function => ?_) ?_ definitions
    List.nodup_nil
  · simp only [addFunction_ok_iff, exists_and_left, ← exists_bindFunction_iff]
    rw [exists_comm]
    simp
  · intro functions function after added
    obtain ⟨-, stage, -, rfl⟩ := addFunction_ok_iff.mp added
    exact List.map_append

theorem functionsOf_of_foldlM {definitions : List FunctionDefinition} {functions : Dict Stage}
    (done : definitions.foldlM (addFunction load registry) [] = .ok functions) :
    FunctionsOf load registry definitions functions := by
  constructor
  · refine keys_of_foldlM Dict.keys FunctionDefinition.name ?_ done
    intro functions function after added
    obtain ⟨-, stage, -, rfl⟩ := addFunction_ok_iff.mp added
    exact List.map_append
  · refine @foldlM_keeps_of_mem _ _ _ _ (fun functions : Dict Stage => ∀ entry ∈ functions,
      ∃ function ∈ definitions, function.name = entry.1 ∧
        bindFunction load registry function = .ok entry.2) _ ?_ _ _ done
      (fun _ member => absurd member List.not_mem_nil)
    intro function member before after added each entry inAfter
    obtain ⟨-, stage, bound, rfl⟩ := addFunction_ok_iff.mp added
    rcases List.mem_append.mp inAfter with inBefore | new
    · exact each entry inBefore
    · rw [List.mem_singleton.mp new]
      exact ⟨function, member, rfl, bound⟩

/-! ### Resolvers -/

/-- What an entry's resolver runs between the entry's templates: the entry's data source, or what
its functions stand for, in their order. -/
inductive PlanOf (load : Loader) (sources : List String) (stands : String → Stage → Prop)
    (entry : ResolverEntry) : Plan → Prop where
  | unit {stage : Stage} (shape : entry.shape = .unit) (name : stage.name = entry.owner)
      (dataSource : entry.dataSource = some stage.dataSource) (known : stage.dataSource ∈ sources)
      (request : Loads load entry.request stage.request)
      (response : Loads load entry.response stage.response) :
      PlanOf load sources stands entry (.unit stage)
  | pipeline {before after : Option String} {stages : List Stage} (shape : entry.shape = .pipeline)
      (nonempty : entry.functions ≠ []) (each : List.Forall₂ stands entry.functions stages)
      (request : Loads load entry.request before) (response : Loads load entry.response after) :
      PlanOf load sources stands entry (.pipeline before stages after)

/-- The resolver of an entry: for the entry's field of its type. -/
structure ResolverOf (load : Loader) (sources : List String) (stands : String → Stage → Prop)
    (entry : ResolverEntry) (resolver : Resolver) : Prop where
  typeName : resolver.typeName = entry.typeName
  field : resolver.field = entry.field
  plan : PlanOf load sources stands entry resolver.plan

section

variable {functions : Dict Stage}

theorem stageOf_ok_iff {owner name : String} {stage : Stage} :
    stageOf functions owner name = .ok stage ↔ functions.get? name = some stage := by
  unfold stageOf
  split <;> simp_all

theorem bindResolver_ok_iff {entry : ResolverEntry} {resolver : Resolver} :
    bindResolver load registry functions entry = .ok resolver ↔
      ResolverOf load registry.names (fun name stage => functions.get? name = some stage) entry
        resolver := by
  constructor
  · intro done
    obtain ⟨request, first, done⟩ := bind_ok done
    obtain ⟨response, second, done⟩ := bind_ok done
    rw [loadOptional_ok_iff] at first second
    split at done
    · rename_i shape
      split at done
      · cases done
      · rename_i dataSource named
        obtain ⟨_, checked, done⟩ := bind_ok done
        cases done
        exact ⟨rfl, rfl, .unit shape rfl named (checkSource_ok_iff.mp checked) first second⟩
    · rename_i shape
      split at done
      · cases done
      · rename_i nonempty
        obtain ⟨stages, found, done⟩ := bind_ok done
        cases done
        refine ⟨rfl, rfl, .pipeline shape (by simpa using nonempty) ?_ first second⟩
        exact (forall₂_of_mapM found).imp fun _ _ => stageOf_ok_iff.mp
  · obtain ⟨typeName, field, plan⟩ := resolver
    rintro ⟨rfl, rfl, ⟨shape, named, dataSource, known, first, second⟩ |
      ⟨shape, nonempty, each, first, second⟩⟩
    · rename_i stage
      obtain ⟨name, source, request, response⟩ := stage
      subst named
      rw [bindResolver, loadOptional_ok_iff.mpr first, loadOptional_ok_iff.mpr second]
      simp only [shape, dataSource, checkSource_ok_iff.mpr known]
      rfl
    · rename_i before after stages
      have found : entry.functions.mapM (stageOf functions entry.owner) = .ok stages :=
        mapM_of_forall₂ (each.imp fun _ _ => stageOf_ok_iff.mpr)
      have filled : entry.functions.isEmpty = false := by simpa using nonempty
      rw [bindResolver, loadOptional_ok_iff.mpr first, loadOptional_ok_iff.mpr second]
      simp only [shape, filled, found]
      rfl

/-- Whether binding an entry finds all that it needs: its templates and what it runs. -/
structure EntryFits (load : Loader) (sources functions : List String) (entry : ResolverEntry) :
    Prop where
  request : HasText load entry.request
  response : HasText load entry.response
  source : entry.shape = .unit → ∃ name ∈ entry.dataSource, name ∈ sources
  nonempty : entry.shape = .pipeline → entry.functions ≠ []
  functions : entry.shape = .pipeline → ∀ name ∈ entry.functions, name ∈ functions

theorem exists_get?_iff {name : String} :
    (∃ stage, functions.get? name = some stage) ↔ name ∈ functions.keys := by
  rw [← Option.isSome_iff_exists, ← not_iff_not, ← Dict.get?_eq_none_iff]
  simp

theorem exists_bindResolver_iff {entry : ResolverEntry} :
    (∃ resolver, bindResolver load registry functions entry = .ok resolver) ↔
      EntryFits load registry.names functions.keys entry := by
  simp only [bindResolver_ok_iff]
  constructor
  · rintro ⟨⟨_, _, plan⟩, -, -, ⟨shape, named, dataSource, known, first, second⟩ |
      ⟨shape, nonempty, each, first, second⟩⟩
    · refine ⟨exists_loads_iff.mp ⟨_, first⟩, exists_loads_iff.mp ⟨_, second⟩,
        fun _ => ⟨_, dataSource, known⟩, ?_, ?_⟩ <;>
        exact fun other => absurd (shape.symm.trans other) nofun
    · refine ⟨exists_loads_iff.mp ⟨_, first⟩, exists_loads_iff.mp ⟨_, second⟩,
        fun other => absurd (shape.symm.trans other) nofun, fun _ => nonempty, fun _ => ?_⟩
      intro name member
      obtain ⟨stage, -, found⟩ := exists_of_mem_left each member
      exact exists_get?_iff.mp ⟨stage, found⟩
  · rintro ⟨first, second, source, nonempty, named⟩
    obtain ⟨request, first⟩ := exists_loads_iff.mpr first
    obtain ⟨response, second⟩ := exists_loads_iff.mpr second
    cases shape : entry.shape with
    | unit =>
      obtain ⟨dataSource, given, known⟩ := source shape
      exact ⟨{ typeName := entry.typeName, field := entry.field
               plan := .unit { name := entry.owner, dataSource, request, response } },
        rfl, rfl, .unit shape rfl given known first second⟩
    | pipeline =>
      obtain ⟨stages, each⟩ : ∃ stages,
          entry.functions.mapM (stageOf functions entry.owner) = .ok stages := by
        refine mapM_ok fun name member => ?_
        obtain ⟨stage, found⟩ := exists_get?_iff.mpr (named shape name member)
        exact ⟨stage, stageOf_ok_iff.mpr found⟩
      exact ⟨{ typeName := entry.typeName, field := entry.field
               plan := .pipeline request stages response },
        rfl, rfl, .pipeline shape (nonempty shape)
          ((forall₂_of_mapM each).imp fun _ _ => stageOf_ok_iff.mp) first second⟩

end

end Definition

/-! ### The resolvers of an API -/

namespace Api

/-- The fields of types that there are resolvers for. -/
def places (api : Api) : List (String × String) :=
  api.resolvers.map fun resolver => (resolver.typeName, resolver.field)

theorem resolver?_isSome_iff {api : Api} {typeName field : String} :
    (api.resolver? typeName field).isSome = true ↔ (typeName, field) ∈ api.places := by
  simp [resolver?, places, List.find?_isSome]

theorem addResolver_ok_iff {api after : Api} {resolver : Resolver} :
    api.addResolver resolver = .ok after ↔
      (resolver.typeName, resolver.field) ∉ api.places ∧
        after = { api with resolvers := api.resolvers ++ [resolver] } := by
  rw [← resolver?_isSome_iff, addResolver]
  by_cases known : (api.resolver? resolver.typeName resolver.field).isSome = true
  · rw [if_pos known]
    exact ⟨fun added => absurd added nofun, fun new => absurd known new.1⟩
  · rw [if_neg known, Except.ok.injEq]
    exact ⟨fun added => ⟨known, added.symm⟩, fun new => new.2.symm⟩

theorem places_addResolver {api after : Api} {resolver : Resolver}
    (added : api.addResolver resolver = .ok after) :
    after.places = api.places ++ [(resolver.typeName, resolver.field)] := by
  rw [(addResolver_ok_iff.mp added).2]
  exact List.map_append

/-- Resolvers are added just when their fields are distinct. -/
theorem exists_foldlM_addResolver_iff {api : Api} {resolvers : List Resolver}
    (empty : api.resolvers = []) :
    (∃ after, resolvers.foldlM addResolver api = .ok after) ↔
      (resolvers.map fun resolver => (resolver.typeName, resolver.field)).Nodup := by
  have none : api.places = [] := by rw [places, empty, List.map_nil]
  have accepted := exists_foldlM_ok_iff addResolver places
    (fun resolver => (resolver.typeName, resolver.field)) (fun _ => True)
    (fun api resolver => by simp only [addResolver_ok_iff, exists_and_left, exists_eq])
    places_addResolver resolvers (none ▸ List.nodup_nil)
  simpa [none] using accepted

theorem foldlM_addResolver {api after : Api} {resolvers : List Resolver}
    (done : resolvers.foldlM addResolver api = .ok after) :
    after = { api with resolvers := api.resolvers ++ resolvers } := by
  have all : after.resolvers = api.resolvers ++ resolvers.map id :=
    keys_of_foldlM Api.resolvers id (fun added => by rw [(addResolver_ok_iff.mp added).2]; rfl) done
  have others : after = { api with resolvers := after.resolvers } := by
    refine @foldlM_keeps _ _ _ _ (fun last => last = { api with resolvers := last.resolvers })
      ?_ _ _ _ done rfl
    intro before resolver after added same
    rw [(addResolver_ok_iff.mp added).2, same]
  rw [others, all, List.map_id]

/-- A resolver is found under its own field if no two have the same. -/
theorem resolver?_of_mem {api : Api} (distinct : api.places.Nodup) {resolver : Resolver}
    (member : resolver ∈ api.resolvers) :
    api.resolver? resolver.typeName resolver.field = some resolver := by
  obtain ⟨found, leads⟩ := Option.isSome_iff_exists.mp
    (resolver?_isSome_iff.mpr (List.mem_map_of_mem member))
  have same := List.find?_some (p := fun other : Resolver =>
    other.typeName == resolver.typeName && other.field == resolver.field) leads
  rw [Bool.and_eq_true, beq_iff_eq, beq_iff_eq] at same
  rw [leads, List.inj_on_of_nodup_map distinct (List.mem_of_find?_eq_some leads) member
    (Prod.ext same.1 same.2)]

end Api

end FieldResolver
