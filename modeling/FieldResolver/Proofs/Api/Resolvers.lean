/-
**Bound resolvers, read back.**

A resolver that is ready to run is read back from its JSON form, with its stages in their order.

* `Stage.ofJson?_fields`, `Plan.ofJson?_json`, `Resolver.ofJson?_json`: what is written is read
  back;
* `Resolver.readable_json`: from the text, too.
-/

import FieldResolver.Api.Resolver
import FieldResolver.Proofs.Json.Records

namespace FieldResolver

namespace Stage

theorem distinct_fields (stage : Stage) : (Dict.keys stage.fields).Nodup := by
  show ["name", "data_source", "request", "response"].Nodup
  decide

/-- **A stage is read back.** -/
theorem ofJson?_fields (stage : Stage) : ofJson? (.object stage.fields) = some stage := by
  have name : Dict.get? stage.fields "name" = some (.string stage.name) := rfl
  have dataSource : Dict.get? stage.fields "data_source" = some (.string stage.dataSource) := rfl
  have request : Json.Record.optional ⟨stage.fields, false⟩ "request" Json.string? =
      some stage.request :=
    Json.Record.optional_stringOrNull rfl
  have response : Json.Record.optional ⟨stage.fields, false⟩ "response" Json.string? =
      some stage.response :=
    Json.Record.optional_stringOrNull rfl
  rw [ofJson?, Json.Record.ofJson?_object _ stage.distinct_fields]
  simp [Json.Record.required, name, dataSource, request, response, Json.string?]

/-- A text that may be missing is readable. -/
theorem readable_template {bound : Nat} (template : Option String) :
    Json.Readable bound (Json.ofOption (template.map .string)) := by
  refine .ofOption fun found member => ?_
  obtain ⟨text, -, rfl⟩ := Option.map_eq_some_iff.mp member
  exact .string text

theorem readable_fields (stage : Stage) : ∀ field ∈ stage.fields, Json.Readable 0 field.2 := by
  unfold fields
  rw [List.forall_mem_cons, List.forall_mem_cons, List.forall_mem_cons, List.forall_mem_singleton]
  exact ⟨.string _, .string _, readable_template _, readable_template _⟩

end Stage

namespace Plan

/-- **A plan is read back.** -/
theorem ofJson?_json (plan : Plan) : ofJson? plan.json = some plan := by
  cases plan with
  | unit stage =>
    have distinct : ("kind" :: Dict.keys stage.fields).Nodup :=
      show ["kind", "name", "data_source", "request", "response"].Nodup by decide
    rw [json, ofJson?, Json.tagged?_object distinct]
    show (Stage.ofJson? (.object stage.fields)).map unit = _
    rw [stage.ofJson?_fields]
    rfl
  | pipeline before stages after =>
    obtain ⟨fields, shape⟩ : ∃ fields : Dict Json,
        (pipeline before stages after).json = .object (("kind", .string "pipeline") :: fields) :=
      ⟨_, rfl⟩
    have distinct : ("kind" :: Dict.keys fields).Nodup := by
      cases shape
      show ["kind", "before", "functions", "after"].Nodup
      decide
    have first : Json.Record.optional ⟨fields, false⟩ "before" Json.string? = some before := by
      cases shape
      exact Json.Record.optional_stringOrNull rfl
    have listed : fields.get? "functions" =
        some (.array (stages.map fun stage => .object stage.fields)) := by
      cases shape
      rfl
    have back : Json.listOf? Stage.ofJson? (.array (stages.map fun stage => .object stage.fields)) =
        some stages :=
      Json.listOf?_map fun stage _ => stage.ofJson?_fields
    have last : Json.Record.optional ⟨fields, false⟩ "after" Json.string? = some after := by
      cases shape
      exact Json.Record.optional_stringOrNull rfl
    rw [shape, ofJson?, Json.tagged?_object distinct]
    show (Json.Record.ofJson? _ (.object fields) >>= fun record => _) = _
    rw [Json.Record.ofJson?_object _ (List.nodup_cons.mp distinct).2]
    simp [Json.Record.required, first, listed, back, last]

theorem readable_json (plan : Plan) : Json.Readable 3 plan.json := by
  cases plan with
  | unit stage =>
    refine .object (show ["kind", "name", "data_source", "request", "response"].Nodup by decide)
      (List.forall_mem_cons.mpr ⟨.string _, fun field member => ?_⟩)
    exact (stage.readable_fields field member).mono (by decide)
  | pipeline before stages after =>
    have functions : Json.Readable 2 (.array (stages.map fun stage => .object stage.fields)) :=
      .array (List.forall_mem_map.mpr fun stage _ =>
        .object stage.distinct_fields stage.readable_fields)
    refine .object (show ["kind", "before", "functions", "after"].Nodup by decide) ?_
    rw [List.forall_mem_cons, List.forall_mem_cons, List.forall_mem_cons,
      List.forall_mem_singleton]
    exact ⟨.string _, Stage.readable_template before, functions, Stage.readable_template after⟩

end Plan

namespace Resolver

theorem distinct_of_json {resolver : Resolver} {fields : Dict Json}
    (shape : resolver.json = .object fields) : (Dict.keys fields).Nodup := by
  cases shape
  show ["type_name", "field_name", "kind"].Nodup
  decide

/-- **A bound resolver is read back.** -/
theorem ofJson?_json (resolver : Resolver) : ofJson? resolver.json = some resolver := by
  obtain ⟨fields, shape⟩ : ∃ fields : Dict Json, resolver.json = .object fields := ⟨_, rfl⟩
  have typeName : fields.get? "type_name" = some (.string resolver.typeName) := by
    cases shape
    rfl
  have field : fields.get? "field_name" = some (.string resolver.field) := by
    cases shape
    rfl
  have plan : fields.get? "kind" = some resolver.plan.json := by
    cases shape
    rfl
  rw [shape, ofJson?, Json.Record.ofJson?_object _ (distinct_of_json shape)]
  simp [Json.Record.required, typeName, field, plan, Json.string?, Plan.ofJson?_json]

theorem readable_json (resolver : Resolver) : Json.Readable 4 resolver.json := by
  refine .object (distinct_of_json rfl) ?_
  rw [List.forall_mem_cons, List.forall_mem_cons, List.forall_mem_singleton]
  exact ⟨.string _, .string _, resolver.plan.readable_json⟩

end Resolver

end FieldResolver
