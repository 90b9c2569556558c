/-
**Calling built-in functions.**

* `callIn_util`: what a function of `$util` that only computes gives.
-/

import FieldResolver.Template.Function.Attributes
import FieldResolver.Template.Function.Collection
import FieldResolver.Template.Function.General
import FieldResolver.Template.Function.Rows
import FieldResolver.Template.Function.Time

namespace FieldResolver.Template.Function

/-- Calls a function that only computes and names it in a failure. -/
def place (group : Namespace) (name : String) : Result → Run Value
  | .ok outcome => outcome.place
  | .error cause => Run.fault (.function group name cause)

/-- Calls a function of a group. -/
def callIn (environment : Environment) (group : Namespace) (name : String)
    (arguments : List Value) : Run Value := do
  let call : Call := ⟨← Run.heap, arguments⟩
  match group with
  | .util => General.call environment name call
  | .time => place .time name (Time.call environment.now name call)
  | .list => place .list name (callList name call)
  | .map => place .map name (callMap name call)
  | .math => place .math name (callMath name call)
  | .dynamodb => place .dynamodb name (Attributes.call name call)
  | .rds => place .rds name (Rows.call name call)

/-- What a function of `$util` that only computes gives. -/
theorem callIn_util (environment : Environment) {name : String} {arguments : List Value}
    {state : State} {result : Result}
    (computed : General.compute? name ⟨state.heap, arguments⟩ = some result) :
    callIn environment .util name arguments state = place .util name result state := by
  suffices called : General.call environment name ⟨state.heap, arguments⟩ =
      place .util name result from congrFun called state
  unfold General.call
  split
  case h_7 =>
    simp only [computed]
    cases result <;> rfl
  -- The functions that do more than compute are named in front.
  all_goals cases computed

end FieldResolver.Template.Function
