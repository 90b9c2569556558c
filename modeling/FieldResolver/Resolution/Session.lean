/-
**Resolving fields.**

A session resolves fields one after another or at the same time. What its fields share is the
evaluator with the templates parsed so far, the tables behind the dispatcher, and batches that are
still open.
-/

import FieldResolver.Resolution.FieldResult
import FieldResolver.Resolution.Timeline

namespace FieldResolver

/-- Why a resolution has no result. -/
inductive ResolutionError where
  | cancelled
  | noResolver (typeName field : String)
deriving DecidableEq

/-- The wording of an error. -/
def ResolutionError.message : ResolutionError → String
  | .cancelled => "resolution cancelled"
  | .noResolver typeName field => s!"no resolver for {typeName}.{field}"

namespace Resolver

/-- A request that names its field: the one of the resolver if it names none. -/
def named (resolver : Resolver) (request : FieldRequest) : FieldRequest :=
  if request.info.field.isEmpty then
    { request with
      info := { request.info with parentType := resolver.typeName, field := resolver.field } }
  else request

/-- The program that resolves a request. -/
def program (resolver : Resolver) (request : FieldRequest) : Program (Option FieldResult) :=
  let request := resolver.named request
  (resolver.resolution (.ofRequest request)).map (FieldResult.ofEnding? request.info.responsePath)

/-- How many calls a resolver makes at most. -/
def maxCalls (resolver : Resolver) : Nat := resolver.plan.stages.length

end Resolver

/-- A session. -/
structure Session where
  dispatcher : Dispatcher
  surroundings : Template.Surroundings
  timeline : Timeline (Option FieldResult) := {}
  /-- The number of fields so far. -/
  fields : Nat := 0

namespace Session

/-- The result of a field that was resolved. -/
def resultOf (session : Session) (task : Nat) : Except ResolutionError FieldResult :=
  match session.timeline.result? task with
  | some (some result) => .ok result
  | _ => .error .cancelled

/-- Resolves a field; the caller may give up after a time in milliseconds. -/
def resolveField (session : Session) (resolver : Resolver) (request : FieldRequest)
    (cancelAfter : Option Nat := none) : Except ResolutionError FieldResult × Session :=
  let task := session.fields
  let timeline := session.timeline.finish session.dispatcher session.surroundings task
    resolver.maxCalls cancelAfter (resolver.program request)
  let session := { session with timeline, fields := task + 1 }
  (session.resultOf task, session)

/-- Resolves the field that a request names by its resolver in an API. -/
def resolve (session : Session) (api : Api) (request : FieldRequest)
    (cancelAfter : Option Nat := none) : Except ResolutionError FieldResult × Session :=
  match api.resolver? request.info.parentType request.info.field with
  | some resolver => session.resolveField resolver request cancelAfter
  | none => (.error (.noResolver request.info.parentType request.info.field), session)

/-- Resolves fields at the same time; the results are in the order of the fields. The caller may
give up all of them after a time in milliseconds. -/
def resolveFields (session : Session) (fields : List (Resolver × FieldRequest))
    (cancelAfter : Option Nat := none) : Except ResolutionError (List FieldResult) × Session :=
  if cancelAfter = some 0 then (.error .cancelled, session)
  else
    let deadline := cancelAfter.map (session.timeline.clock + ·)
    let numbered := fields.zipIdx session.fields
    let programs := numbered.map fun ((resolver, request), task) =>
      (task, cancelAfter, resolver.program request)
    let calls := fields.foldl (fun calls field => calls + field.1.maxCalls) 0
    let timeline :=
      session.timeline.finishAll session.dispatcher session.surroundings calls deadline programs
    let session := { session with timeline, fields := session.fields + fields.length }
    (numbered.mapM fun (_, task) => session.resultOf task, session)

end Session

end FieldResolver
