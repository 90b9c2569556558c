/-
**Templates that change nothing.**

A template that calls no function and no method and sets nothing makes new lists and maps only. So
the stash is written back from the containers that it was put into, and what comes back is the stash
as templates see it, however the evaluation ends.

* `Node.arePassive`: whether nodes hold no call and no `#set`;
* `execute_extends`: such nodes leave every container as it is;
* `stashAfter_eq`: the stash behind them;
* `Evaluator.passive_stash`: the context behind an evaluation of such a template.
-/

import FieldResolver.Proofs.Template.Reuse
import FieldResolver.Proofs.Template.Start
import FieldResolver.Proofs.Template.Steps

namespace FieldResolver.Template

mutual

/-- Whether an expression holds no call and no `#set`. -/
def Expr.isPassive : Expr → Bool
  | .null | .bool _ | .int _ | .float _ | .string _ => true
  | .interpolated nodes => Node.arePassive nodes
  | .reference _ segments => Segment.arePassive segments
  | .list items => Expr.arePassive items
  | .range first last => first.isPassive && last.isPassive
  | .map entries => Entry.arePassive entries
  | .not operand | .neg operand => operand.isPassive
  | .binary _ left right => left.isPassive && right.isPassive

/-- Whether expressions hold no call and no `#set`. -/
def Expr.arePassive : List Expr → Bool
  | [] => true
  | item :: rest => item.isPassive && Expr.arePassive rest

/-- Whether the entries of a map hold no call and no `#set`. -/
def Entry.arePassive : List Entry → Bool
  | [] => true
  | .mk key value :: rest => key.isPassive && value.isPassive && Entry.arePassive rest

/-- Whether a segment is no call and holds none and no `#set`. -/
def Segment.isPassive : Segment → Bool
  | .property _ => true
  | .index key => key.isPassive
  | .method _ _ => false

/-- Whether segments are no calls and hold none and no `#set`. -/
def Segment.arePassive : List Segment → Bool
  | [] => true
  | segment :: rest => segment.isPassive && Segment.arePassive rest

/-- Whether a node is no `#set` and holds none and no call. -/
def Node.isPassive : Node → Bool
  | .text _ | .breakLoop | .stop => true
  | .reference _ segments => Segment.arePassive segments
  | .set _ _ _ => false
  | .cond branches otherwise => Branch.arePassive branches && Node.arePassive otherwise
  | .foreach _ items body => items.isPassive && Node.arePassive body
  | .returnValue value => value.isPassive
  | .console arguments => Expr.arePassive arguments

/-- Whether nodes hold no call and no `#set`. -/
def Node.arePassive : List Node → Bool
  | [] => true
  | node :: rest => node.isPassive && Node.arePassive rest

/-- Whether branches hold no call and no `#set`. -/
def Branch.arePassive : List Branch → Bool
  | [] => true
  | .mk test body :: rest =>
    test.isPassive && Node.arePassive body && Branch.arePassive rest

end

instance : Std.Refl Heap.Extends := ⟨Heap.Extends.refl⟩

instance : IsTrans Heap Heap.Extends := ⟨fun _ _ _ first second => first.trans second⟩

/-! ### Runs -/

namespace Run

/-- Whether a step leaves every container as it is. -/
abbrev Extends {α : Type} (step : Run α) : Prop := Relates State.heap Heap.Extends step

section

variable {α : Type}

/-- A step that leaves the heap as it is. -/
theorem extends_of_eq {step : Run α} (same : ∀ state, (step.after state).heap = state.heap) :
    Extends step :=
  relates_of_eq same

theorem extends_write (text : String) : Extends (write text) := extends_of_eq fun _ => rfl

theorem extends_newList (items : List Value) : Extends (newList items) :=
  fun state => state.heap.extends_allocList items

theorem extends_newMap (entries : Dict Value) : Extends (newMap entries) :=
  fun state => state.heap.extends_allocMap entries

end

end Run

open Run

section

variable (environment : Environment)

mutual

theorem evaluate_extends : (expr : Expr) → expr.isPassive → Extends (evaluate environment expr)
  | .null, _ | .bool _, _ | .int _, _ | .float _, _ | .string _, _ => relates_pure _
  | .interpolated nodes, passive =>
    relates_bind (relates_captured (fun _ _ => rfl) (execute_extends nodes passive)) fun _ =>
      relates_pure _
  | .reference root segments, passive =>
    relates_bind (relates_lookup root) fun value => follow_extends value segments passive
  | .list items, passive =>
    relates_bind (evaluateAll_extends items passive) fun _ => extends_newList _
  | .range first last, passive => by
    obtain ⟨here, there⟩ := Bool.and_eq_true_iff.mp passive
    refine relates_bind (evaluate_extends first here) fun _ =>
      relates_bind (evaluate_extends last there) fun _ => ?_
    exact relates_bind (relates_ofExcept _) fun _ => extends_newList _
  | .map entries, passive =>
    relates_bind (evaluateEntries_extends [] entries passive) fun _ => extends_newMap _
  | .not operand, passive =>
    relates_bind (evaluate_extends operand passive) fun _ => relates_pure _
  | .neg operand, passive =>
    relates_bind (evaluate_extends operand passive) fun _ => relates_ofExcept _
  | .binary op left right, passive => by
    obtain ⟨here, there⟩ := Bool.and_eq_true_iff.mp passive
    refine relates_bind (evaluate_extends left here) fun value =>
      relates_ite (fun _ => relates_pure _) fun _ =>
        relates_ite (fun _ => relates_pure _) fun _ => ?_
    exact relates_bind (evaluate_extends right there) fun _ =>
      relates_bind relates_heap fun _ => relates_ofExcept _

theorem evaluateAll_extends : (items : List Expr) → Expr.arePassive items →
    Extends (evaluateAll environment items)
  | [], _ => relates_pure _
  | item :: rest, passive => by
    obtain ⟨here, there⟩ := Bool.and_eq_true_iff.mp passive
    exact relates_bind (evaluate_extends item here) fun _ =>
      relates_bind (evaluateAll_extends rest there) fun _ => relates_pure _

theorem evaluateEntries_extends : (sofar : Dict Value) → (entries : List Entry) →
    Entry.arePassive entries → Extends (evaluateEntries environment sofar entries)
  | _, [], _ => relates_pure _
  | sofar, .mk key value :: rest, passive => by
    obtain ⟨entry, others⟩ := Bool.and_eq_true_iff.mp passive
    obtain ⟨here, there⟩ := Bool.and_eq_true_iff.mp entry
    refine relates_bind (evaluate_extends key here) fun key =>
      relates_ite (fun _ => relates_throw _) fun _ => ?_
    exact relates_bind (evaluate_extends value there) fun value =>
      relates_bind relates_heap fun _ => evaluateEntries_extends _ rest others

theorem follow_extends : (value : Value) → (segments : List Segment) →
    Segment.arePassive segments → Extends (follow environment value segments)
  | _, [], _ => relates_pure _
  | value, segment :: rest, passive => by
    obtain ⟨here, there⟩ := Bool.and_eq_true_iff.mp passive
    exact relates_bind (step_extends value segment here) fun part => follow_extends part rest there

theorem step_extends : (value : Value) → (segment : Segment) → segment.isPassive →
    Extends (step environment value segment)
  | _, .property _, _ => relates_bind relates_heap fun _ => relates_pure _
  | _, .index key, passive => relates_bind (evaluate_extends key passive) fun _ =>
    relates_bind relates_heap fun _ => relates_ofExcept _

/-- **Nodes without calls and `#set`** leave every container as it is, however they end. -/
theorem execute_extends : (nodes : List Node) → Node.arePassive nodes →
    Extends (execute environment nodes)
  | [], _ => relates_pure _
  | node :: rest, passive => by
    obtain ⟨here, there⟩ := Bool.and_eq_true_iff.mp passive
    exact relates_bind (executeNode_extends node here) fun _ => execute_extends rest there

theorem executeNode_extends : (node : Node) → node.isPassive →
    Extends (executeNode environment node)
  | .text _, _ => extends_write _
  | .reference root segments, passive => by
    refine relates_bind (relates_lookup root) fun value => ?_
    exact relates_bind (follow_extends value segments passive) fun _ =>
      relates_bind relates_heap fun _ => extends_write _
  | .cond branches otherwise, passive => by
    obtain ⟨here, there⟩ := Bool.and_eq_true_iff.mp passive
    exact executeBranches_extends (execute_extends otherwise there) branches here
  | .foreach name items body, passive => by
    obtain ⟨here, there⟩ := Bool.and_eq_true_iff.mp passive
    refine relates_bind (evaluate_extends items here) fun container =>
      relates_bind relates_heap fun _ => relates_bind (relates_ofExcept _) fun _ => ?_
    exact relates_runForeach (rebinds_of_blind fun _ _ => rfl) extends_newMap
      (execute_extends body there) _ _
  | .breakLoop, _ | .stop, _ => relates_throw _
  | .returnValue value, passive =>
    relates_bind (evaluate_extends value passive) fun _ => relates_throw _
  | .console arguments, passive =>
    relates_bind (evaluateAll_extends arguments passive) fun _ => relates_pure _

theorem executeBranches_extends {otherwise : Run Unit} (last : Extends otherwise) :
    (branches : List Branch) → Branch.arePassive branches →
      Extends (executeBranches environment otherwise branches)
  | [], _ => last
  | .mk test body :: rest, passive => by
    obtain ⟨branch, others⟩ := Bool.and_eq_true_iff.mp passive
    obtain ⟨here, there⟩ := Bool.and_eq_true_iff.mp branch
    exact relates_bind (evaluate_extends test here) fun _ =>
      relates_ite (fun _ => execute_extends body there) fun _ =>
        executeBranches_extends last rest others

end

end

/-! ### Evaluations -/

/-- **The stash of a heap that still holds what it started with** is the stash as templates see
it. -/
theorem stashAfter_eq {context : Context} {heap : Heap}
    (more : (startState context).heap.Extends heap) :
    stashAfter context heap = context.stash.mapValues Json.narrowed := by
  have seen : seenAs context "stash" = some (.object context.stash) := context.templateJson_stash
  obtain ⟨stored, found, written⟩ := startState_get? context seen
  rw [stashAfter, more.get? found, Option.map_some, written heap more, Json.narrowed,
    Json.narrowedFields_eq_mapValues]

/-- Nodes without calls and `#set` leave the stash as templates see it. -/
theorem evaluateNodes_passive (surroundings : Surroundings) {nodes : List Node}
    (passive : Node.arePassive nodes) (context : Context) :
    (evaluateNodes surroundings nodes context).2 =
      { context with stash := context.stash.mapValues Json.narrowed } := by
  rw [evaluateNodes_eq, runNodes, finalState_eq_after]
  have more := execute_extends (surroundings.environment context) nodes passive (startState context)
  simp only [stashAfter_eq more]

namespace Evaluator

section

variable (uses : List Use) (surroundings : Surroundings) (context : Context) {source : String}

/-- A template without calls and `#set` leaves the stash as templates see it. -/
theorem evaluate_passive {nodes : List Node} (parsed : nodesOf source = .ok nodes)
    (passive : Node.arePassive nodes) :
    ((behind uses).evaluate surroundings source context).2.1 =
      { context with stash := context.stash.mapValues Json.narrowed } := by
  have evaluated := (keeps_behind uses).sound.evaluate_eq surroundings source context
  rw [parsed] at evaluated
  exact (congrArg Prod.snd evaluated).trans (evaluateNodes_passive surroundings passive context)

/-- A text that is no template leaves the context as it is. -/
theorem evaluate_malformed {failure : Failure} (malformed : nodesOf source = .error failure) :
    ((behind uses).evaluate surroundings source context).2.1 = context := by
  have evaluated := (keeps_behind uses).sound.evaluate_eq surroundings source context
  rw [malformed] at evaluated
  exact congrArg Prod.snd evaluated

/-- **A template without calls and `#set` changes no more than templates cannot hold.** Whatever the
evaluator was used for and however the evaluation ends, the stash has the same fields in the same
order with the same values, but for whole numbers beyond the signed range, which are the nearest
doubles. Without such numbers the context is what it was. -/
theorem passive_stash (source : String)
    (passive : ∀ nodes, nodesOf source = .ok nodes → Node.arePassive nodes)
    (valid : (Json.object context.stash).Valid) :
    ((nodesOf source).isOk = true →
        ((behind uses).evaluate surroundings source context).2.1 =
          { context with stash := context.stash.mapValues Json.narrowed }) ∧
      ((nodesOf source).isOk = false →
        ((behind uses).evaluate surroundings source context).2.1 = context) ∧
      ((Json.object context.stash).AllNumbers Json.Number.Signed →
        ((behind uses).evaluate surroundings source context).2.1 = context) := by
  cases parsed : nodesOf source with
  | error failure =>
    have unchanged := evaluate_malformed uses surroundings context parsed
    refine ⟨fun isTemplate => ?_, fun _ => unchanged, fun _ => unchanged⟩
    cases isTemplate
  | ok nodes =>
    have left := evaluate_passive uses surroundings context parsed (passive nodes parsed)
    refine ⟨fun _ => left, fun malformed => ?_, fun signed => ?_⟩
    · cases malformed
    · have same : context.stash.mapValues Json.narrowed = context.stash := by
        rw [← Json.narrowedFields_eq_mapValues]
        exact Json.narrowedFields_eq valid.2 signed
      rw [left, same]

end

/-! ### Great numbers in the stash -/

/-- A template that reads the stash. -/
def reading : String := "#if($ctx.stash.n > 1)$ctx.stash.n#end"

/-- A context with a whole number in its stash. -/
def counting (number : Int) : Context where
  stash := [("n", .int number), ("text", .string "#set")]

theorem narrowed_counting {number : Int}
    (same : (counting number).stash.mapValues Json.narrowed = (counting number).stash) :
    (Json.int number).narrowed = .int number :=
  congrArg Prod.snd (List.cons.inj same).1

theorem counting_valid {number : Int} (range : Json.minInt ≤ number ∧ number ≤ Json.maxNat) :
    (Json.object (counting number).stash).Valid :=
  ⟨show ["n", "text"].Nodup by decide, range, trivial, trivial⟩

theorem reading_passive : (nodesOf reading).toOption.any Node.arePassive = true := by decide +kernel

/-- **The greatest signed number stays**, on an evaluator that was used before. -/
theorem signed_number_stays :
    ((behind usesBefore).evaluate ⟨0, fun _ => ""⟩ reading (counting 9223372036854775807)).2.1 =
      counting 9223372036854775807 := by
  have passive : ∀ nodes, nodesOf reading = .ok nodes → Node.arePassive nodes := by
    intro nodes parsed
    have known := reading_passive
    rwa [parsed] at known
  have valid : (Json.object (counting 9223372036854775807).stash).Valid :=
    counting_valid (by decide)
  have signed : Json.minInt ≤ 9223372036854775807 ∧ 9223372036854775807 ≤ Json.maxInt := by decide
  exact (passive_stash usesBefore ⟨0, fun _ => ""⟩ (counting 9223372036854775807) reading passive
    valid).2.2 ⟨signed, trivial, trivial⟩

/-- **The greatest whole number that JSON values hold does not stay**: it becomes a double, although
the template holds no call and no `#set`. -/
theorem great_number_changes :
    (nodesOf reading).toOption.any Node.arePassive = true ∧
      (Json.object (counting 18446744073709551615).stash).Valid ∧
      (({} : Evaluator).evaluate ⟨0, fun _ => ""⟩ reading
        (counting 18446744073709551615)).2.1.stash ≠ (counting 18446744073709551615).stash := by
  refine ⟨reading_passive, counting_valid (by decide), fun same => ?_⟩
  obtain ⟨nodes, parsed, passive⟩ : ∃ nodes, nodesOf reading = .ok nodes ∧
      Node.arePassive nodes := by
    have known := reading_passive
    cases parsed : nodesOf reading with
    | error failure =>
      rw [parsed] at known
      cases known
    | ok nodes =>
      rw [parsed] at known
      exact ⟨nodes, rfl, known⟩
  have left := evaluate_passive [] ⟨0, fun _ => ""⟩ (counting 18446744073709551615) parsed passive
  rw [show behind [] = ({} : Evaluator) from rfl] at left
  rw [left] at same
  exact Json.narrowed_int_ne (by decide) (narrowed_counting same)

end Evaluator

end FieldResolver.Template
