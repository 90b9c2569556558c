/-
**What templates record stays recorded.**

A run of a template may end early in many ways: in the middle of a loop, of a text that is captured,
of the arguments of a function. However it ends, the errors recorded so far are there at its end, in
the order in which they were recorded, and only `$util.appendError` adds to them. The identifiers
handed out are counted in the same way, and only `$util.autoId` hands out any.

* `Keeps`: a relation between the accounts before and after a step;
* `callIn_quiet`, `callMethod_quiet`: functions other than these two, and methods, leave the account
  as it is;
* `execute_appends`: a template only adds errors at the end.
-/

import FieldResolver.Proofs.Template.Frames
import Mathlib.Data.List.Infix

namespace FieldResolver.Template

/-- What a run keeps account of. -/
structure Ledger where
  recorded : List Raised
  /-- How many identifiers have been handed out. -/
  identifiers : Nat

/-- The account in a state. -/
def State.ledger (state : State) : Ledger where
  recorded := state.recorded
  identifiers := state.identifiers

/-- Whether errors were only added at the end. -/
def Ledger.Adds (before after : Ledger) : Prop := before.recorded <+: after.recorded

instance : Std.Refl Ledger.Adds := ⟨fun ledger => List.prefix_refl ledger.recorded⟩

instance : IsTrans Ledger Ledger.Adds :=
  ⟨fun _ _ _ first second => List.IsPrefix.trans first second⟩

namespace Run

/-- Whether the accounts before and after a step are related. -/
def Keeps {α : Type} (relation : Ledger → Ledger → Prop) (step : Run α) : Prop :=
  ∀ state, relation state.ledger (step.after state).ledger

/-- Whether a step records nothing and hands out no identifier. -/
abbrev Quiet {α : Type} (step : Run α) : Prop := Keeps (· = ·) step

/-- Whether a step only adds recorded errors at the end. -/
abbrev Appends {α : Type} (step : Run α) : Prop := Keeps Ledger.Adds step

section

variable {α : Type} {relation : Ledger → Ledger → Prop} [Std.Refl relation]

theorem keeps_of_eq {step : Run α} (same : ∀ state, (step.after state).ledger = state.ledger) :
    Keeps relation step := by
  intro state
  rw [same]
  exact Std.Refl.refl _

theorem Quiet.keeps {step : Run α} (quiet : Quiet step) : Keeps relation step :=
  keeps_of_eq fun state => (quiet state).symm

@[simp] theorem keeps_pure (value : α) : Keeps relation (pure value : Run α) :=
  keeps_of_eq fun _ => rfl

@[simp] theorem keeps_throw (interrupt : Interrupt) : Keeps relation (throw interrupt : Run α) :=
  keeps_of_eq fun _ => rfl

@[simp] theorem keeps_fault (cause : Fault) : Keeps relation (fault cause : Run α) :=
  keeps_of_eq fun _ => rfl

@[simp] theorem keeps_ofExcept (value : Except Fault α) : Keeps relation (ofExcept value) := by
  cases value <;> exact keeps_of_eq fun _ => rfl

@[simp] theorem keeps_heap : Keeps relation heap := keeps_of_eq fun _ => rfl

@[simp] theorem keeps_newList (items : List Value) : Keeps relation (newList items) :=
  keeps_of_eq fun _ => rfl

@[simp] theorem keeps_newMap (entries : Dict Value) : Keeps relation (newMap entries) :=
  keeps_of_eq fun _ => rfl

@[simp] theorem keeps_write (text : String) : Keeps relation (write text) :=
  keeps_of_eq fun _ => rfl

@[simp] theorem keeps_setVariable (name : String) (value : Value) :
    Keeps relation (setVariable name value) :=
  keeps_of_eq fun _ => rfl

@[simp] theorem keeps_takeVariable (name : String) : Keeps relation (takeVariable name) :=
  keeps_of_eq fun _ => rfl

@[simp] theorem keeps_restoreVariable (name : String) (value : Option Value) :
    Keeps relation (restoreVariable name value) := by
  cases value <;> exact keeps_of_eq fun _ => rfl

end

section

variable {α β : Type} {relation : Ledger → Ledger → Prop}

/-- A step and what follows it. -/
@[simp] theorem keeps_bind [IsTrans Ledger relation] {first : Run α} {next : α → Run β}
    (here : Keeps relation first) (below : ∀ value, Keeps relation (next value)) :
    Keeps relation (first >>= next) :=
  show Relates State.ledger relation _ from relates_bind here below

end

end Run

open Run

/-! ### Functions and methods -/

theorem lookup_quiet (name : String) : Quiet (Run.lookup name) :=
  show Relates State.ledger (· = ·) _ from relates_lookup name

/-- A step that changes only the heap leaves the account as it is. -/
theorem Run.Confined.quiet {α : Type} {step : Run α} (confined : Confined step) : Quiet step :=
  show Relates State.ledger (· = ·) step from confined.relates fun _ _ => rfl

/-- **Methods record nothing.** -/
theorem callMethod_quiet (target : Value) (name : String) (arguments : List Value) :
    Quiet (callMethod target name arguments) :=
  (callMethod_confined target name arguments).quiet

/-- **Functions other than `$util.appendError` and `$util.autoId` leave the account as it is.** -/
theorem callIn_quiet (environment : Environment) {group : Namespace} {name : String}
    (append : ¬ (group = .util ∧ name = "appendError"))
    (draw : ¬ (group = .util ∧ name = "autoId")) (arguments : List Value) :
    Quiet (Function.callIn environment group name arguments) :=
  (callIn_confined environment append draw arguments).quiet

theorem assignProperty_quiet (container : Value) (name : String) (value : Value) :
    Quiet (assignProperty container name value) :=
  (assignProperty_confined container name value).quiet

theorem assignElement_quiet (container key value : Value) :
    Quiet (assignElement container key value) :=
  (assignElement_confined container key value).quiet

/-- **`$util.appendError` records its error behind all others.** -/
theorem appendError_records (environment : Environment) (arguments : List Value) (state : State) :
    ((Function.callIn environment .util "appendError" arguments).after state).ledger =
      { state.ledger with
        recorded :=
          state.recorded ++ [Function.General.raisedError ⟨state.heap, arguments⟩] } :=
  rfl

/-- **`$util.autoId` counts the identifier that it hands out.** -/
theorem autoId_counts (environment : Environment) (arguments : List Value) (state : State) :
    ((Function.callIn environment .util "autoId" arguments).after state).ledger =
      { state.ledger with identifiers := state.identifiers + 1 } :=
  rfl

theorem callIn_appends (environment : Environment) (group : Namespace) (name : String)
    (arguments : List Value) : Appends (Function.callIn environment group name arguments) := by
  have builds : Builds State.ledger Ledger.Adds := builds_of_blind fun _ _ => rfl
  refine callIn_relates_of builds (fun arguments state => ?_) (fun arguments state => ?_) group name
    arguments
  · rw [appendError_records]
    exact List.prefix_append _ _
  · rw [autoId_counts]
    exact List.prefix_refl _

/-! ### Templates -/

theorem respects_adds (environment : Environment) :
    Respects environment State.ledger Ledger.Adds where
  heap _ _ := rfl
  output _ _ := rfl
  binding := rebinds_of_blind fun _ _ => rfl
  functions group name arguments := callIn_appends environment group name arguments

/-- **A template only adds errors behind those recorded before**, however it ends. -/
theorem execute_appends (environment : Environment) (nodes : List Node) :
    Appends (execute environment nodes) :=
  execute_relates (respects_adds environment) nodes

end FieldResolver.Template
