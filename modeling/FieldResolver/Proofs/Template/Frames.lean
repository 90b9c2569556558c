/-
**What templates can do to a state.**

Methods, and functions other than `$util.appendError` and `$util.autoId`, change the heap only. So a
relation that sees neither the heap nor the output is respected by every template, in whichever way
it ends, once it is respected by binding variables and by functions.

* `Builds`: what a relation needs of the steps that functions and methods are made of
  (`callIn_relates`, `callMethod_relates`);
* `Run.Confined`: whether a step changes the heap only;
* `callMethod_confined`, `callIn_confined`: methods and most functions do;
* `Carries`: what a relation needs so that every template carries it, `execute_carries`;
* `Respects`: what it needs if it does not see the heap, `execute_relates`;
* `execute_distinct`, `startState_distinct`: the names of variables are distinct and stay so.
-/

import FieldResolver.Proofs.Dict
import FieldResolver.Proofs.Template.Steps
import FieldResolver.Template.Evaluator

set_option linter.unusedSectionVars false

namespace FieldResolver.Template

/-- A state but for its heap. -/
def State.offHeap (state : State) : State := { state with heap := {} }

namespace Run

/-- Whether a step changes nothing but the heap. -/
abbrev Confined {α : Type} (step : Run α) : Prop := Relates State.offHeap (· = ·) step

/-- What does not see the heap sees nothing of a step that changes only the heap. -/
theorem Confined.relates {σ α : Type} {view : State → σ} {relation : σ → σ → Prop}
    [Std.Refl relation] (blind : ∀ state heap, view { state with heap } = view state)
    {step : Run α} (confined : Confined step) : Relates view relation step := by
  have off (state : State) : view state.offHeap = view state := blind state {}
  refine relates_of_eq fun state => ?_
  rw [← off, ← confined state, off]

@[simp] theorem confined_newList (items : List Value) : Confined (newList items) := fun _ => rfl

@[simp] theorem confined_newMap (entries : Dict Value) : Confined (newMap entries) := fun _ => rfl

@[simp] theorem confined_newJson (json : Json) : Confined (newJson json) := fun _ => rfl

@[simp] theorem confined_setList (place : Nat) (items : List Value) :
    Confined (setList place items) :=
  fun _ => rfl

@[simp] theorem confined_setMap (place : Nat) (entries : Dict Value) :
    Confined (setMap place entries) :=
  fun _ => rfl

end Run

open Run

/-! ### Functions and methods -/

section

variable {σ : Type} {view : State → σ} {relation : σ → σ → Prop}

/-- What a relation needs of making containers and of writing lists. Functions and methods do
nothing else to the heap, but for the methods that write the map they are called of. -/
structure Builds (view : State → σ) (relation : σ → σ → Prop) : Prop where
  lists : ∀ items, Relates view relation (newList items)
  maps : ∀ entries, Relates view relation (newMap entries)
  documents : ∀ document, Relates view relation (newJson document)
  writes : ∀ place items, Relates view relation (setList place items)

variable [Std.Refl relation] (builds : Builds view relation)

include builds

theorem place_relates (outcome : Function.Outcome) : Relates view relation outcome.place := by
  cases outcome with
  | value => exact relates_pure _
  | list items => exact builds.lists items
  | map entries => exact builds.maps entries
  | json document => exact builds.documents document

theorem placeIn_relates (group : Namespace) (name : String) (result : Function.Result) :
    Relates view relation (Function.place group name result) := by
  cases result with
  | ok outcome => exact place_relates builds outcome
  | error cause => exact relates_fault _

/-- Functions of `$util` other than `$util.appendError` and `$util.autoId` only make containers. -/
theorem general_relates (environment : Environment) {name : String} (append : name ≠ "appendError")
    (draw : name ≠ "autoId") (call : Function.Call) :
    Relates view relation (Function.General.call environment name call) := by
  unfold Function.General.call
  split
  · exact relates_throw _
  · exact relates_throw _
  · exact relates_ite (fun _ => relates_pure _) fun _ => relates_throw _
  · exact absurd rfl append
  · exact absurd rfl draw
  · exact relates_pure _
  · split
    · exact place_relates builds _
    · exact relates_fault _
    · exact relates_fault _

variable [IsTrans σ relation]

/-- **Functions other than `$util.appendError` and `$util.autoId` only make containers.** -/
theorem callIn_relates (environment : Environment) {group : Namespace} {name : String}
    (append : ¬ (group = .util ∧ name = "appendError"))
    (draw : ¬ (group = .util ∧ name = "autoId")) (arguments : List Value) :
    Relates view relation (Function.callIn environment group name arguments) := by
  refine relates_bind relates_heap fun heap => ?_
  cases group with
  | util =>
    exact general_relates builds environment (fun same => append ⟨rfl, same⟩)
      (fun same => draw ⟨rfl, same⟩) _
  | _ => exact placeIn_relates builds _ _ _

/-- **Functions only make containers**, but for the two that do more. -/
theorem callIn_relates_of {environment : Environment}
    (append : ∀ arguments,
      Relates view relation (Function.callIn environment .util "appendError" arguments))
    (draw : ∀ arguments,
      Relates view relation (Function.callIn environment .util "autoId" arguments))
    (group : Namespace) (name : String) (arguments : List Value) :
    Relates view relation (Function.callIn environment group name arguments) := by
  by_cases appends : group = .util ∧ name = "appendError"
  · obtain ⟨rfl, rfl⟩ := appends
    exact append arguments
  · by_cases draws : group = .util ∧ name = "autoId"
    · obtain ⟨rfl, rfl⟩ := draws
      exact draw arguments
    · exact callIn_relates builds environment appends draws arguments

theorem callList_relates (place : Nat) (name : String) (arguments : List Value) :
    Relates view relation (callList place name arguments) := by
  have writes := builds.writes
  have lists := builds.lists
  refine relates_bind relates_heap fun heap => ?_
  simp only
  split
  case h_4 =>
    refine relates_bind (relates_ofExcept _) fun index =>
      relates_ite (fun _ => ?_) fun _ => relates_fault _
    exact relates_bind (writes _ _) fun _ => relates_pure _
  case h_12 =>
    split <;> simp [writes]
  case h_14 =>
    exact relates_bind (relates_ofExcept _) fun first =>
      relates_bind (relates_ofExcept _) fun last => by simp [lists]
  all_goals simp [writes]

theorem entryMaps_relates (entries : Dict Value) : Relates view relation (entryMaps entries) := by
  induction entries with
  | nil => exact relates_pure _
  | cons entry rest ih => exact relates_bind (builds.maps _) fun _ => by simp [ih]

/-- A method of a map needs writing the map, too. -/
theorem callMap_relates {place : Nat}
    (writes : ∀ entries, Relates view relation (setMap place entries)) (name : String)
    (arguments : List Value) : Relates view relation (callMap place name arguments) := by
  have lists := builds.lists
  have entryMaps := entryMaps_relates builds
  refine relates_bind relates_heap fun heap => ?_
  simp only
  split
  case h_14 =>
    split <;> simp
  all_goals simp [writes, lists, entryMaps]

/-- A method needs what the methods of the map need, if it is called of one. -/
theorem callMethod_relates {target : Value}
    (maps : ∀ place, target = .map place → ∀ name arguments,
      Relates view relation (callMap place name arguments))
    (name : String) (arguments : List Value) :
    Relates view relation (callMethod target name arguments) := by
  refine relates_ite (fun _ => relates_fault _) fun _ => relates_bind relates_heap fun heap => ?_
  split
  · exact relates_pure _
  · exact relates_pure _
  · exact relates_pure _
  · cases target with
    | string text =>
      refine relates_bind (relates_ofExcept _) fun result => ?_
      cases result with
      | value => exact relates_pure _
      | parts => exact builds.lists _
    | list place => exact callList_relates builds place name arguments
    | map place => exact maps place rfl name arguments
    | int | float => exact relates_ofExcept _
    | bool => simp
    | undefined | null | functions => exact relates_fault _

omit builds in
theorem assignProperty_relates {container : Value}
    (writes : ∀ place, container = .map place → ∀ entries,
      Relates view relation (setMap place entries))
    (name : String) (value : Value) :
    Relates view relation (assignProperty container name value) := by
  cases container with
  | map place => exact relates_bind relates_heap fun _ => writes place rfl _
  | _ => exact relates_fault _

theorem assignElement_relates {container : Value}
    (writes : ∀ place, container = .map place → ∀ entries,
      Relates view relation (setMap place entries))
    (key value : Value) : Relates view relation (assignElement container key value) := by
  refine relates_bind relates_heap fun heap => ?_
  split
  · exact relates_ite (fun _ => relates_fault _) fun _ => writes _ rfl _
  · exact relates_ite (fun _ => builds.writes _ _) fun _ => relates_fault _
  · exact relates_fault _

end

theorem confined_builds : Builds State.offHeap (· = ·) where
  lists := confined_newList
  maps := confined_newMap
  documents := confined_newJson
  writes := confined_setList

/-- Making containers and writing lists is not seen where the heap is not. -/
theorem builds_of_blind {σ : Type} {view : State → σ} {relation : σ → σ → Prop}
    [Std.Refl relation] (blind : ∀ state heap, view { state with heap } = view state) :
    Builds view relation where
  lists items := (confined_newList items).relates blind
  maps entries := (confined_newMap entries).relates blind
  documents document := (confined_newJson document).relates blind
  writes place items := (confined_setList place items).relates blind

/-- **Methods change nothing but the heap.** -/
theorem callMethod_confined (target : Value) (name : String) (arguments : List Value) :
    Confined (callMethod target name arguments) :=
  callMethod_relates confined_builds
    (fun _ _ => callMap_relates confined_builds (confined_setMap _)) name arguments

/-- **Functions other than `$util.appendError` and `$util.autoId` change nothing but the heap.** -/
theorem callIn_confined (environment : Environment) {group : Namespace} {name : String}
    (append : ¬ (group = .util ∧ name = "appendError"))
    (draw : ¬ (group = .util ∧ name = "autoId")) (arguments : List Value) :
    Confined (Function.callIn environment group name arguments) :=
  callIn_relates confined_builds environment append draw arguments

theorem assignProperty_confined (container : Value) (name : String) (value : Value) :
    Confined (assignProperty container name value) :=
  assignProperty_relates (fun _ _ => confined_setMap _) name value

theorem assignElement_confined (container key value : Value) :
    Confined (assignElement container key value) :=
  assignElement_relates confined_builds (fun _ _ => confined_setMap _) key value

/-! ### Templates -/

/-- What a relation needs of the steps that templates are made of so that every template carries
it. -/
structure Carries (environment : Environment) {σ : Type} (view : State → σ)
    (relation : σ → σ → Prop) : Prop where
  output : ∀ state output, view { state with output } = view state
  binding : Rebinds view relation
  lists : ∀ items, Relates view relation (newList items)
  maps : ∀ entries, Relates view relation (newMap entries)
  methods : ∀ target name arguments, Relates view relation (callMethod target name arguments)
  properties : ∀ container name value, Relates view relation (assignProperty container name value)
  elements : ∀ container key value, Relates view relation (assignElement container key value)
  functions : ∀ group name arguments,
    Relates view relation (Function.callIn environment group name arguments)

section

variable {environment : Environment} {σ : Type} {view : State → σ} {relation : σ → σ → Prop}
  [Std.Refl relation] [IsTrans σ relation] (carries : Carries environment view relation)

include carries

theorem Carries.write (text : String) : Relates view relation (Run.write text) :=
  relates_of_eq fun state => carries.output state _

mutual

theorem evaluate_carries : (expr : Expr) → Relates view relation (evaluate environment expr)
  | .null | .bool _ | .int _ | .float _ | .string _ => relates_pure _
  | .interpolated nodes =>
    relates_bind (relates_captured carries.output (execute_carries nodes)) fun _ => relates_pure _
  | .reference root segments =>
    relates_bind (relates_lookup root) fun value => follow_carries value segments
  | .list items =>
    relates_bind (evaluateAll_carries items) fun _ => carries.lists _
  | .range first last =>
    relates_bind (evaluate_carries first) fun _ => relates_bind (evaluate_carries last) fun _ =>
      relates_bind (relates_ofExcept _) fun _ => carries.lists _
  | .map entries => relates_bind (evaluateEntries_carries [] entries) fun _ => carries.maps _
  | .not operand => relates_bind (evaluate_carries operand) fun _ => relates_pure _
  | .neg operand => relates_bind (evaluate_carries operand) fun _ => relates_ofExcept _
  | .binary op left right => by
    refine relates_bind (evaluate_carries left) fun value =>
      relates_ite (fun _ => relates_pure _) fun _ =>
        relates_ite (fun _ => relates_pure _) fun _ => ?_
    exact relates_bind (evaluate_carries right) fun _ =>
      relates_bind relates_heap fun _ => relates_ofExcept _

theorem evaluateAll_carries : (items : List Expr) →
    Relates view relation (evaluateAll environment items)
  | [] => relates_pure _
  | item :: rest => relates_bind (evaluate_carries item) fun _ =>
    relates_bind (evaluateAll_carries rest) fun _ => relates_pure _

theorem evaluateEntries_carries : (sofar : Dict Value) → (entries : List Entry) →
    Relates view relation (evaluateEntries environment sofar entries)
  | _, [] => relates_pure _
  | sofar, .mk key value :: rest => by
    refine relates_bind (evaluate_carries key) fun key =>
      relates_ite (fun _ => relates_fault _) fun _ => ?_
    exact relates_bind (evaluate_carries value) fun value => relates_bind relates_heap fun _ =>
      evaluateEntries_carries _ rest

theorem follow_carries : (value : Value) → (segments : List Segment) →
    Relates view relation (follow environment value segments)
  | _, [] => relates_pure _
  | value, segment :: rest =>
    relates_bind (step_carries value segment) fun part => follow_carries part rest

theorem step_carries : (value : Value) → (segment : Segment) →
    Relates view relation (step environment value segment)
  | _, .property _ => relates_bind relates_heap fun _ => relates_pure _
  | _, .index key => relates_bind (evaluate_carries key) fun _ =>
    relates_bind relates_heap fun _ => relates_ofExcept _
  | value, .method name arguments => by
    refine relates_bind (evaluateAll_carries arguments) fun arguments => ?_
    split
    · exact carries.functions _ _ _
    · exact carries.methods _ _ _

theorem assign_carries : (container value : Value) → (segments : List Segment) →
    Relates view relation (assign environment container value segments)
  | _, _, [] => relates_pure _
  | container, value, [last] => assignLast_carries container value last
  | container, value, segment :: next :: rest => relates_bind (step_carries container segment)
    fun part => assign_carries part value (next :: rest)

theorem assignLast_carries : (container value : Value) → (segment : Segment) →
    Relates view relation (assignLast environment container value segment)
  | container, value, .property name =>
    carries.properties container name value
  | container, value, .index key => relates_bind (evaluate_carries key) fun key =>
    carries.elements container key value
  | _, _, .method _ _ => relates_fault _

/-- **A template carries what its steps carry**, in whichever way it ends. -/
theorem execute_carries : (nodes : List Node) → Relates view relation (execute environment nodes)
  | [] => relates_pure _
  | node :: rest => relates_bind (executeNode_carries node) fun _ => execute_carries rest

theorem executeNode_carries : (node : Node) →
    Relates view relation (executeNode environment node)
  | .text _ => carries.write _
  | .reference root segments => by
    refine relates_bind (relates_lookup root) fun value => ?_
    exact relates_bind (follow_carries value segments) fun _ =>
      relates_bind relates_heap fun _ => carries.write _
  | .set root segments value => by
    refine relates_bind (evaluate_carries value) fun value =>
      relates_ite (fun _ => carries.binding.bind _ _) fun _ => ?_
    exact relates_bind (relates_lookup root) fun container =>
      assign_carries container value segments
  | .cond branches otherwise => executeBranches_carries (execute_carries otherwise) branches
  | .foreach name items body => by
    refine relates_bind (evaluate_carries items) fun container =>
      relates_bind relates_heap fun _ => relates_bind (relates_ofExcept _) fun _ => ?_
    exact relates_runForeach carries.binding
      carries.maps (execute_carries body) _ _
  | .breakLoop | .stop => relates_throw _
  | .returnValue value => relates_bind (evaluate_carries value) fun _ => relates_throw _
  | .console arguments => relates_bind (evaluateAll_carries arguments) fun _ => relates_pure _

theorem executeBranches_carries {otherwise : Run Unit} (last : Relates view relation otherwise) :
    (branches : List Branch) →
      Relates view relation (executeBranches environment otherwise branches)
  | [] => last
  | .mk test body :: rest => relates_bind (evaluate_carries test) fun _ =>
    relates_ite (fun _ => execute_carries body) fun _ => executeBranches_carries last rest

end

end

/-- What a relation that does not see the heap needs so that every template respects it. -/
structure Respects (environment : Environment) {σ : Type} (view : State → σ)
    (relation : σ → σ → Prop) : Prop where
  heap : ∀ state heap, view { state with heap } = view state
  output : ∀ state output, view { state with output } = view state
  binding : Rebinds view relation
  functions : ∀ group name arguments,
    Relates view relation (Function.callIn environment group name arguments)

section

variable {environment : Environment} {σ : Type} {view : State → σ} {relation : σ → σ → Prop}
  [Std.Refl relation] [IsTrans σ relation] (respects : Respects environment view relation)

include respects

/-- Steps that change only the heap are not seen. -/
theorem Respects.carries : Carries environment view relation where
  output := respects.output
  binding := respects.binding
  lists := (builds_of_blind respects.heap).lists
  maps := (builds_of_blind respects.heap).maps
  methods target name arguments := (callMethod_confined target name arguments).relates respects.heap
  properties container name value :=
    (assignProperty_confined container name value).relates respects.heap
  elements container key value :=
    (assignElement_confined container key value).relates respects.heap
  functions := respects.functions

theorem evaluate_relates (expr : Expr) : Relates view relation (evaluate environment expr) :=
  evaluate_carries respects.carries expr

/-- **A template respects what its variables and functions respect**, in whichever way it ends. -/
theorem execute_relates (nodes : List Node) : Relates view relation (execute environment nodes) :=
  execute_carries respects.carries nodes

end

/-! ### Distinct names of variables -/

/-- Whether every variable is bound once. -/
def State.Distinct (state : State) : Prop := (Dict.keys state.bindings).Nodup

/-- What holds and what follows from it. -/
def Implies (before after : Prop) : Prop := before → after

instance : Std.Refl Implies := ⟨fun _ holds => holds⟩

instance : IsTrans Prop Implies := ⟨fun _ _ _ first second holds => second (first holds)⟩

theorem rebinds_distinct : Rebinds State.Distinct Implies where
  bind name value _ distinct := Dict.keys_insert_nodup distinct name value
  unbind name _ distinct := Dict.keys_erase_nodup distinct name

/-- No function binds a variable. -/
theorem callIn_bindings (environment : Environment) (group : Namespace) (name : String)
    (arguments : List Value) :
    Relates State.bindings (· = ·) (Function.callIn environment group name arguments) :=
  callIn_relates_of (builds_of_blind fun _ _ => rfl) (fun _ _ => rfl) (fun _ _ => rfl) group name
    arguments

theorem respects_distinct (environment : Environment) :
    Respects environment State.Distinct Implies where
  heap _ _ := rfl
  output _ _ := rfl
  binding := rebinds_distinct
  functions group name arguments state distinct := by
    rwa [State.Distinct, ← callIn_bindings environment group name arguments state]

/-- **A template keeps the names of its variables distinct**, in whichever way it ends. -/
theorem execute_distinct (environment : Environment) (nodes : List Node) {state : State}
    (distinct : state.Distinct) : ((execute environment nodes).after state).Distinct :=
  execute_relates (respects_distinct environment) nodes state distinct

/-- An evaluation starts with distinct names. -/
theorem startState_distinct (context : Context) : (startState context).Distinct :=
  show ["context", "ctx"].Nodup by decide

end FieldResolver.Template
