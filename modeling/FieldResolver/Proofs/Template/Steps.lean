/-
**Relations that steps of a template respect.**

The steps of a template are made of others in a few ways: one after another, one of two, with the
output captured, as a turn of a loop, with a step at the end however the first ends. A relation
between what is seen of the states before and after passes through all of them, also where a step
ends early.

* `Run.after`: the state that a step leaves behind, however it ends;
* `Run.Relates`: whether what is seen of the states before and after a step is related, with a lemma
  for each way of making steps of others (`relates_bind` and those behind it);
* `Run.Rebinds`: whether binding variables is related, which is what loops do between their turns
  (`relates_runLoop`, `relates_runForeach`).
-/

import FieldResolver.Template.Interpreter
import Mathlib.Order.Defs.Unbundled

namespace FieldResolver.Template.Run

/-- The state that a step leaves behind, however it ends. -/
def after {α : Type} (step : Run α) (state : State) : State :=
  match step state with
  | .ok _ after | .error _ after => after

section

variable {α β : Type} {first : Run α} {next : α → Run β} {state middle : State}

theorem bind_of_ok {value : α} (done : first state = .ok value middle) :
    (first >>= next) state = next value middle := by
  show EStateM.bind first next state = _
  simp only [EStateM.bind, done]

theorem bind_of_error {interrupt : Interrupt} (done : first state = .error interrupt middle) :
    (first >>= next) state = .error interrupt middle := by
  show EStateM.bind first next state = _
  simp only [EStateM.bind, done]

/-- A value of two steps comes from a value of the first. -/
theorem bind_ok {value : β} {last : State} (done : (first >>= next) state = .ok value last) :
    ∃ part middle, first state = .ok part middle ∧ next part middle = .ok value last := by
  cases here : first state with
  | ok part middle =>
    rw [bind_of_ok here] at done
    exact ⟨part, middle, rfl, done⟩
  | error interrupt middle =>
    rw [bind_of_error here] at done
    cases done

theorem after_bind_of_ok {value : α} (done : first state = .ok value middle) :
    (first >>= next).after state = (next value).after middle := by
  rw [after, bind_of_ok done, after]

theorem after_bind_of_error {interrupt : Interrupt} (done : first state = .error interrupt middle) :
    (first >>= next).after state = middle := by
  rw [after, bind_of_error done]

theorem after_map (change : α → β) (step : Run α) (state : State) :
    (change <$> step).after state = step.after state := by
  show after (EStateM.map change step) state = _
  unfold after EStateM.map
  cases step state <;> rfl

theorem after_captured (step : Run Unit) (state : State) :
    (captured step).after state =
      { step.after { state with output := "" } with output := state.output } := by
  unfold after captured
  cases step { state with output := "" } <;> rfl

theorem after_turn (body : Run Unit) (state : State) :
    (turn body).after state = body.after state := by
  unfold after turn
  cases body state with
  | ok => rfl
  | error interrupt => cases interrupt <;> rfl

theorem after_ensuring (step last : Run Unit) (state : State) :
    (ensuring step last).after state = last.after (step.after state) := by
  unfold after ensuring
  cases step state with
  | ok => rfl
  | error interrupt middle =>
    simp only
    cases last middle <;> rfl

end

/-- Whether what is seen of the states before and after a step is related. -/
def Relates {σ α : Type} (view : State → σ) (relation : σ → σ → Prop) (step : Run α) : Prop :=
  ∀ state, relation (view state) (view (step.after state))

section

variable {σ α β : Type} {view : State → σ} {relation : σ → σ → Prop}

/-- A step that leaves what is seen as it is. -/
theorem relates_of_eq [Std.Refl relation] {step : Run α}
    (same : ∀ state, view (step.after state) = view state) : Relates view relation step := by
  intro state
  rw [same]
  exact Std.Refl.refl _

section

variable [Std.Refl relation]

@[simp] theorem relates_pure (value : α) : Relates view relation (pure value : Run α) :=
  relates_of_eq fun _ => rfl

@[simp] theorem relates_throw (interrupt : Interrupt) :
    Relates view relation (throw interrupt : Run α) :=
  relates_of_eq fun _ => rfl

@[simp] theorem relates_fault (cause : Fault) : Relates view relation (fault cause : Run α) :=
  relates_of_eq fun _ => rfl

@[simp] theorem relates_ofExcept (value : Except Fault α) :
    Relates view relation (ofExcept value) := by
  cases value <;> exact relates_of_eq fun _ => rfl

@[simp] theorem relates_get : Relates view relation (get : Run State) := relates_of_eq fun _ => rfl

@[simp] theorem relates_heap : Relates view relation heap := relates_of_eq fun _ => rfl

end

/-- A step and what follows it. -/
@[simp] theorem relates_bind [IsTrans σ relation] {first : Run α} {next : α → Run β}
    (here : Relates view relation first) (below : ∀ value, Relates view relation (next value)) :
    Relates view relation (first >>= next) := by
  intro state
  have early := here state
  cases done : first state with
  | ok value middle =>
    rw [after_bind_of_ok done]
    rw [after, done] at early
    exact IsTrans.trans _ _ _ early (below value middle)
  | error interrupt middle =>
    rw [after_bind_of_error done]
    rwa [after, done] at early

@[simp] theorem relates_map {step : Run α} (change : α → β) (relates : Relates view relation step) :
    Relates view relation (change <$> step) := by
  intro state
  rw [after_map]
  exact relates state

@[simp] theorem relates_ite {test : Prop} [Decidable test] {first second : Run α}
    (yes : test → Relates view relation first) (no : ¬ test → Relates view relation second) :
    Relates view relation (if test then first else second) := by
  split
  · exact yes ‹_›
  · exact no ‹_›

theorem relates_lookup [Std.Refl relation] [IsTrans σ relation] (name : String) :
    Relates view relation (lookup name) := by
  refine relates_bind relates_get fun state => ?_
  split <;> exact relates_pure _

/-- Capturing the output is not seen where the output is not. -/
theorem relates_captured (blind : ∀ state output, view { state with output } = view state)
    {step : Run Unit} (relates : Relates view relation step) :
    Relates view relation (captured step) := by
  intro state
  have here := relates { state with output := "" }
  have there := blind (step.after { state with output := "" }) state.output
  rw [blind] at here
  rw [after_captured]
  exact (congrArg (relation (view state)) there).mpr here

theorem relates_turn {body : Run Unit} (relates : Relates view relation body) :
    Relates view relation (turn body) := by
  intro state
  rw [after_turn]
  exact relates state

theorem relates_ensuring [IsTrans σ relation] {step last : Run Unit}
    (first : Relates view relation step) (second : Relates view relation last) :
    Relates view relation (ensuring step last) := by
  intro state
  rw [after_ensuring]
  exact IsTrans.trans _ _ _ (first state) (second (step.after state))

/-- Whether binding a variable and unbinding it is related. -/
structure Rebinds (view : State → σ) (relation : σ → σ → Prop) : Prop where
  bind : ∀ name value, Relates view relation (setVariable name value)
  unbind : ∀ name, Relates view relation (takeVariable name)

/-- Bindings are not seen. -/
theorem rebinds_of_blind [Std.Refl relation]
    (blind : ∀ state bindings, view { state with bindings } = view state) :
    Rebinds view relation where
  bind _ _ := relates_of_eq fun state => blind state _
  unbind _ := relates_of_eq fun state => blind state _

theorem relates_restoreVariable (rebinds : Rebinds view relation) (name : String)
    (value : Option Value) : Relates view relation (restoreVariable name value) := by
  cases value with
  | some value => exact rebinds.bind name value
  | none => exact rebinds.unbind name

section

variable [Std.Refl relation] [IsTrans σ relation] (rebinds : Rebinds view relation)
  (entries : ∀ entries : Dict Value, Relates view relation (newMap entries))

include rebinds entries

/-- A loop binds its variables and makes a map for each turn. -/
theorem relates_runLoop {body : Run Unit} (relates : Relates view relation body) (name : String)
    (count place : Nat) (items : List Value) :
    Relates view relation (runLoop name body count place items) := by
  induction items generalizing place with
  | nil => exact relates_of_eq fun _ => rfl
  | cons item rest ih =>
    refine relates_bind (rebinds.bind _ _) fun _ => relates_bind (entries _) fun _ =>
      relates_bind (rebinds.bind _ _) fun _ => relates_bind (relates_turn relates) fun goes => ?_
    exact relates_ite (fun _ => ih _) fun _ => relates_of_eq fun _ => rfl

/-- A loop restores its variables. -/
theorem relates_runForeach {body : Run Unit} (relates : Relates view relation body) (name : String)
    (items : List Value) : Relates view relation (runForeach name body items) := by
  refine relates_bind (rebinds.unbind _) fun loopVariable =>
    relates_bind (rebinds.unbind _) fun loopState => ?_
  refine relates_ensuring (relates_runLoop rebinds entries relates _ _ _ _) ?_
  exact relates_bind (relates_restoreVariable rebinds _ _) fun _ =>
    relates_restoreVariable rebinds _ _

end

end

end FieldResolver.Template.Run
