/-
**The arguments in templates.**

A template finds the arguments of a field under `$ctx.args`. It can write them as JSON and it can
return them, and neither changes anything else. The arguments that it finds are those of the
context, unless they hold whole numbers beyond the signed range.

* `State.Shows`: whether a template finds some arguments;
* `State.Shows.executeNode_eq`, `State.Shows.ofRun_return`: what it writes, and what it returns;
* `startState_shows`: the arguments that an evaluation starts with;
* `reference?_arguments`, `parse_return`: how both are written in a template.
-/

import FieldResolver.Proofs.Json.Narrowed
import FieldResolver.Proofs.Template.Cache
import FieldResolver.Proofs.Template.Literal
import FieldResolver.Proofs.Template.Start

namespace FieldResolver.Template

namespace Run

variable {state : State}

theorem get_eq : (get : Run State) state = .ok state state := rfl

theorem lookup_of_bound {name : String} {value : Value}
    (bound : state.bindings.get? name = some value) : lookup name state = .ok value state := by
  unfold lookup
  rw [bind_of_ok get_eq]
  simp only [bound]
  rfl

theorem lookup_util (unbound : state.bindings.get? "util" = none) :
    lookup "util" state = .ok (.functions .util) state := by
  unfold lookup
  rw [bind_of_ok get_eq]
  simp only [unbound]
  rfl

end Run

open Run

/-- How a template refers to the arguments. -/
def argumentsExpr : Expr := .reference "ctx" [.property "args"]

/-- How a template writes the arguments as JSON. -/
def argumentsNode : Node := .reference "util" [.method "toJson" [argumentsExpr]]

/-- Whether a template finds arguments under `$ctx.args`, and the built-in functions. -/
structure State.Shows (state : State) (arguments : Json) : Prop where
  functions : state.bindings.get? "util" = none
  found : ∃ place value, state.bindings.get? "ctx" = some (.map place) ∧
    (state.heap.map place).get? "args" = some value ∧ state.heap.json value = arguments

namespace State.Shows

variable {state : State} {arguments : Json} (shown : state.Shows arguments)

include shown

/-- What has been written does not matter. -/
theorem output (output : String) : { state with output }.Shows arguments :=
  ⟨shown.functions, shown.found⟩

variable (environment : Environment)

/-- The arguments that a template finds. -/
theorem evaluate_eq :
    ∃ value, evaluate environment argumentsExpr state = .ok value state ∧
      state.heap.json value = arguments := by
  obtain ⟨place, value, bound, entry, json⟩ := shown.found
  refine ⟨value, ?_, json⟩
  have part : step environment (.map place) (.property "args") state = .ok value state := by
    rw [step]
    show EStateM.Result.ok (((state.heap.map place).get? "args").getD .undefined) state = _
    rw [entry]
    rfl
  rw [argumentsExpr, evaluate, bind_of_ok (lookup_of_bound bound), follow, bind_of_ok part, follow]
  rfl

/-- **A template writes the arguments** as JSON and changes nothing else. -/
theorem executeNode_eq :
    executeNode environment argumentsNode state =
      .ok () { state with output := state.output ++ arguments.render } := by
  obtain ⟨value, evaluated, json⟩ := shown.evaluate_eq environment
  have items : evaluateAll environment [argumentsExpr] state = .ok [value] state := by
    rw [evaluateAll, bind_of_ok evaluated, evaluateAll]
    rfl
  have called : step environment (.functions .util) (.method "toJson" [argumentsExpr]) state =
      .ok (.string arguments.render) state := by
    rw [step, bind_of_ok items]
    show EStateM.Result.ok (Value.string (state.heap.json value).render) state = _
    rw [json]
  have followed : follow environment (.functions .util) [.method "toJson" [argumentsExpr]] state =
      .ok (.string arguments.render) state := by
    rw [follow, bind_of_ok called, follow]
    rfl
  rw [argumentsNode, executeNode, bind_of_ok (lookup_util shown.functions), bind_of_ok followed]
  show EStateM.Result.ok () { state with
    output := state.output ++ String.ofList arguments.render.toList } = _
  rw [String.ofList_toList]

/-- **A template returns the arguments**, whatever stands behind. -/
theorem ofRun_return (nodes : List Node) :
    Outcome.ofRun (execute environment (.returnValue argumentsExpr :: nodes) state) =
      .rendered
        { value := arguments
          recorded := state.recorded
          returned := true } := by
  obtain ⟨value, evaluated, json⟩ := shown.evaluate_eq environment
  have thrown : executeNode environment (.returnValue argumentsExpr) state =
      .error (.returned value) state := by
    rw [executeNode, bind_of_ok evaluated]
    rfl
  rw [execute_cons_of_error thrown, Outcome.ofRun, json]

end State.Shows

/-- **An evaluation starts with the arguments of its context**, if templates can hold them. -/
theorem startState_shows {context : Context} (valid : context.arguments.Valid)
    (signed : context.arguments.AllNumbers Json.Number.Signed) :
    (startState context).Shows context.arguments := by
  have seen : seenAs context "args" = some context.arguments := context.templateJson_arguments
  obtain ⟨value, entry, json⟩ := startState_get? context seen
  refine ⟨by rw [startState_bindings]; rfl, rootPlace context, value,
    by rw [startState_bindings]; rfl, entry, ?_⟩
  rw [json _ (.refl _), Json.narrowed_eq valid signed]

/-! ### Parsing -/

section

open FieldResolver.Template.Parser

/-- How `$util.toJson($ctx.args)` is written. -/
def argumentsText : List Char := "$util.toJson($ctx.args)".toList

theorem isName_ctx : IsName ['c', 't', 'x'] := ⟨rfl, rfl⟩

theorem isName_args : IsName ['a', 'r', 'g', 's'] := ⟨rfl, rfl⟩

theorem isName_util : IsName ['u', 't', 'i', 'l'] := ⟨rfl, rfl⟩

theorem isName_toJson : IsName ['t', 'o', 'J', 's', 'o', 'n'] := ⟨rfl, rfl⟩

/-- The reference that writes the arguments, in front of something that is no segment. -/
theorem reference?_arguments {rest : List Char} (stops : Stops rest) {more : Nat}
    (room : 17 ≤ more) :
    reference? more ('$' :: ("util.toJson($ctx.args)".toList ++ rest)) =
      .ok (some (("util", [.method "toJson" [argumentsExpr]]), rest)) :=
  reference?_call isName_util isName_toJson isName_ctx isName_args stops room

/-- A template that returns the arguments. -/
theorem parse_return : parse "#return($ctx.args)".toList = .ok [.returnValue argumentsExpr] := by
  have value : expr 318 0 "$ctx.args)".toList = .ok (argumentsExpr, [')']) :=
    expr_property isName_ctx isName_args (by decide)
  have node : returned 319 ('(' :: "$ctx.args)".toList) = .ok (.returnValue argumentsExpr, []) := by
    rw [returned]
    show (expr 318 0 "$ctx.args)".toList >>= _) = _
    rw [value]
    rfl
  have read : block 320 .template 18 [] [] ("#return(".toList ++ "$ctx.args)".toList) =
      .ok (([.returnValue argumentsExpr], .endOfText), []) := by
    rw [block_return node, block_end]
    rfl
  have budget : budgetFor "#return($ctx.args)".toList.length = 320 := rfl
  unfold parse
  rw [budget]
  show (block 320 .template 18 [] [] ("#return(".toList ++ "$ctx.args)".toList) >>= _) = _
  rw [read]
  rfl

end

end FieldResolver.Template
