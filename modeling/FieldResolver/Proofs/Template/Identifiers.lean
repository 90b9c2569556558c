/-
**Identifiers that are not drawn do not matter.**

The identifiers that `$util.autoId` hands out are all that two evaluations of the same nodes in the
same context at the same time may differ in. Two such runs go on alike until the first identifier is
handed out, and from then on the number of identifiers in both tells that one was.

* `Alike`: two steps do the same, or both hand out an identifier; with a lemma for each way of
  making steps of others;
* `execute_alike`: so do runs of a template that differ in the identifiers that they would get;
* `evaluateNodes_of_undrawn`: an evaluation that hands out none is the same with any others.
-/

import FieldResolver.Proofs.Template.Recording
import FieldResolver.Template.Evaluator

namespace FieldResolver.Template

namespace Run

section

variable {α β : Type} {first second : Run α}

/-- Whether two steps do the same, or both hand out an identifier. -/
def Alike (first second : Run α) : Prop :=
  ∀ state,
    first state = second state ∧ state.identifiers ≤ (first.after state).identifiers ∨
      state.identifiers < (first.after state).identifiers ∧
        state.identifiers < (second.after state).identifiers

/-- A step that counts no identifier is like itself. -/
theorem alike_of_eq {step : Run α}
    (same : ∀ state, (step.after state).identifiers = state.identifiers) : Alike step step :=
  fun state => .inl ⟨rfl, (same state).ge⟩

theorem alike_of_quiet {step : Run α} (quiet : Quiet step) : Alike step step :=
  alike_of_eq fun state => (congrArg Ledger.identifiers (quiet state)).symm

/-- A first of two like steps takes back no identifier. -/
theorem Alike.le_after (alike : Alike first second) (state : State) :
    state.identifiers ≤ (first.after state).identifiers := by
  rcases alike state with ⟨_, bound⟩ | ⟨bound, _⟩
  · exact bound
  · exact bound.le

theorem Alike.symm (alike : Alike first second) : Alike second first := by
  intro state
  rcases alike state with ⟨same, bound⟩ | ⟨drawn, drawn'⟩
  · exact .inl ⟨same.symm, by rwa [after, ← same]⟩
  · exact .inr ⟨drawn', drawn⟩

/-- What follows a step takes back none of the identifiers that the step hands out. -/
theorem le_after_bind {next : α → Run β}
    (below : ∀ value state, state.identifiers ≤ ((next value).after state).identifiers)
    (state : State) :
    (first.after state).identifiers ≤ ((first >>= next).after state).identifiers := by
  cases done : first state with
  | ok value middle =>
    rw [after_bind_of_ok done, after, done]
    exact below value middle
  | error interrupt middle => rw [after_bind_of_error done, after, done]

/-- Like steps and what follows them. -/
theorem alike_bind {next other : α → Run β} (here : Alike first second)
    (below : ∀ value, Alike (next value) (other value)) :
    Alike (first >>= next) (second >>= other) := by
  intro state
  rcases here state with ⟨same, bound⟩ | ⟨drawn, drawn'⟩
  · cases done : first state with
    | ok value middle =>
      have done' := same.symm.trans done
      rw [after, done] at bound
      have goes : (first >>= next) state = next value middle ∧
          (second >>= other) state = other value middle :=
        ⟨by show EStateM.bind _ _ _ = _; rw [EStateM.bind, done],
          by show EStateM.bind _ _ _ = _; rw [EStateM.bind, done']⟩
      rw [after_bind_of_ok done, after_bind_of_ok done', goes.1, goes.2]
      rcases below value middle with ⟨same, later⟩ | ⟨later, later'⟩
      · exact .inl ⟨same, bound.trans later⟩
      · exact .inr ⟨bound.trans_lt later, bound.trans_lt later'⟩
    | error interrupt middle =>
      have done' := same.symm.trans done
      rw [after, done] at bound
      refine .inl ⟨?_, by rwa [after_bind_of_error done]⟩
      show EStateM.bind _ _ _ = EStateM.bind _ _ _
      rw [EStateM.bind, EStateM.bind, done, done']
  · exact .inr ⟨drawn.trans_le (le_after_bind (fun value => (below value).le_after) state),
      drawn'.trans_le (le_after_bind (fun value => (below value).symm.le_after) state)⟩

theorem alike_ite {test : Prop} [Decidable test] {first' second' : Run α}
    (yes : test → Alike first second) (no : ¬ test → Alike first' second') :
    Alike (if test then first else first') (if test then second else second') := by
  split
  · exact yes ‹_›
  · exact no ‹_›

/-- A step whose end depends on the ends of like steps in a way that leaves their identifiers
alone. -/
theorem alike_of_ends {first' second' : Run β} {start : State → State} (alike : Alike first second)
    (begins : ∀ state, (start state).identifiers = state.identifiers)
    (ends : ∀ state, (first'.after state).identifiers = (first.after (start state)).identifiers)
    (ends' : ∀ state, (second'.after state).identifiers = (second.after (start state)).identifiers)
    (same : ∀ state, first (start state) = second (start state) → first' state = second' state) :
    Alike first' second' := by
  intro state
  have here := alike (start state)
  rw [begins, ← ends, ← ends'] at here
  exact here.imp_left fun ⟨equal, bound⟩ => ⟨same state equal, bound⟩

end

section

variable {first second : Run Unit}

theorem alike_captured (alike : Alike first second) : Alike (captured first) (captured second) := by
  have begins : ∀ state : State, ({ state with output := "" } : State).identifiers =
      state.identifiers := fun _ => rfl
  have ends : ∀ (step : Run Unit) (state : State), ((captured step).after state).identifiers =
      (step.after { state with output := "" }).identifiers :=
    fun step state => by rw [after_captured]
  exact alike_of_ends alike begins (ends first) (ends second)
    fun state same => by rw [captured, captured, same]

theorem alike_turn (alike : Alike first second) : Alike (turn first) (turn second) := by
  have ends : ∀ (step : Run Unit) (state : State),
      ((turn step).after state).identifiers = (step.after state).identifiers :=
    fun step state => by rw [after_turn]
  exact alike_of_ends alike (fun _ => rfl) (ends first) (ends second)
    fun state same => by rw [turn, turn, same]

/-- What is done at the end of like steps hands out no identifier. -/
theorem alike_ensuring {last : Run Unit} (alike : Alike first second) (quiet : Quiet last) :
    Alike (ensuring first last) (ensuring second last) := by
  have ends : ∀ (step : Run Unit) (state : State),
      ((ensuring step last).after state).identifiers = (step.after state).identifiers :=
    fun step state => by
      rw [after_ensuring]
      exact (congrArg Ledger.identifiers (quiet _)).symm
  exact alike_of_ends alike (fun _ => rfl) (ends first) (ends second)
    fun state same => by rw [ensuring, ensuring, same]

end

end Run

open Run

section

/-! ### Functions -/

variable (environment : Environment) (identifier : Nat → String)

/-- Functions of `$util` other than `$util.autoId` do not look at identifiers. -/
theorem general_identifier {name : String} (other : name ≠ "autoId") (call : Function.Call) :
    Function.General.call environment name call =
      Function.General.call { environment with identifier } name call := by
  unfold Function.General.call
  split
  case h_5 => exact absurd rfl other
  all_goals rfl

theorem callIn_identifier {group : Namespace} {name : String}
    (other : ¬ (group = .util ∧ name = "autoId")) (arguments : List Value) :
    Function.callIn environment group name arguments =
      Function.callIn { environment with identifier } group name arguments := by
  unfold Function.callIn
  congr 1
  funext heap
  cases group with
  | util => exact general_identifier environment identifier (fun same => other ⟨rfl, same⟩) _
  | _ => rfl

theorem callIn_alike (group : Namespace) (name : String) (arguments : List Value) :
    Alike (Function.callIn environment group name arguments)
      (Function.callIn { environment with identifier } group name arguments) := by
  by_cases draw : group = .util ∧ name = "autoId"
  · obtain ⟨rfl, rfl⟩ := draw
    exact fun state => .inr ⟨Nat.lt_succ_self _, Nat.lt_succ_self _⟩
  · rw [← callIn_identifier environment identifier draw]
    by_cases append : group = .util ∧ name = "appendError"
    · obtain ⟨rfl, rfl⟩ := append
      exact alike_of_eq fun state =>
        congrArg Ledger.identifiers (appendError_records environment arguments state)
    · exact alike_of_quiet (callIn_quiet environment append draw arguments)

/-! ### Templates -/

theorem runLoop_alike {body body' : Run Unit} (alike : Alike body body') (name : String)
    (count place : Nat) (items : List Value) :
    Alike (runLoop name body count place items) (runLoop name body' count place items) := by
  induction items generalizing place with
  | nil => exact alike_of_quiet (keeps_pure _)
  | cons item rest ih =>
    refine alike_bind (alike_of_quiet (keeps_setVariable _ _)) fun _ =>
      alike_bind (alike_of_quiet (keeps_newMap _)) fun _ =>
        alike_bind (alike_of_quiet (keeps_setVariable _ _)) fun _ =>
          alike_bind (alike_turn alike) fun goes => ?_
    exact alike_ite (fun _ => ih _) fun _ => alike_of_quiet (keeps_pure _)

theorem runForeach_alike {body body' : Run Unit} (alike : Alike body body') (name : String)
    (items : List Value) :
    Alike (runForeach name body items) (runForeach name body' items) := by
  refine alike_bind (alike_of_quiet (keeps_takeVariable _)) fun loopVariable =>
    alike_bind (alike_of_quiet (keeps_takeVariable _)) fun loopState => ?_
  exact alike_ensuring (runLoop_alike alike _ _ _ _) (by simp)

mutual

theorem evaluate_alike : (expr : Expr) →
    Alike (evaluate environment expr) (evaluate { environment with identifier } expr)
  | .null | .bool _ | .int _ | .float _ | .string _ => alike_of_quiet (keeps_pure _)
  | .interpolated nodes =>
    alike_bind (alike_captured (execute_alike nodes)) fun _ => alike_of_quiet (keeps_pure _)
  | .reference root segments =>
    alike_bind (alike_of_quiet (lookup_quiet root)) fun value => follow_alike value segments
  | .list items => alike_bind (evaluateAll_alike items) fun _ => alike_of_quiet (keeps_newList _)
  | .range first last =>
    alike_bind (evaluate_alike first) fun _ => alike_bind (evaluate_alike last) fun _ =>
      alike_bind (alike_of_quiet (keeps_ofExcept _)) fun _ => alike_of_quiet (keeps_newList _)
  | .map entries =>
    alike_bind (evaluateEntries_alike [] entries) fun _ => alike_of_quiet (keeps_newMap _)
  | .not operand => alike_bind (evaluate_alike operand) fun _ => alike_of_quiet (keeps_pure _)
  | .neg operand => alike_bind (evaluate_alike operand) fun _ => alike_of_quiet (keeps_ofExcept _)
  | .binary op left right => by
    refine alike_bind (evaluate_alike left) fun value =>
      alike_ite (fun _ => alike_of_quiet (keeps_pure _)) fun _ =>
        alike_ite (fun _ => alike_of_quiet (keeps_pure _)) fun _ => ?_
    exact alike_bind (evaluate_alike right) fun _ =>
      alike_bind (alike_of_quiet keeps_heap) fun _ => alike_of_quiet (keeps_ofExcept _)

theorem evaluateAll_alike : (items : List Expr) →
    Alike (evaluateAll environment items) (evaluateAll { environment with identifier } items)
  | [] => alike_of_quiet (keeps_pure _)
  | item :: rest => alike_bind (evaluate_alike item) fun _ =>
    alike_bind (evaluateAll_alike rest) fun _ => alike_of_quiet (keeps_pure _)

theorem evaluateEntries_alike : (sofar : Dict Value) → (entries : List Entry) →
    Alike (evaluateEntries environment sofar entries)
      (evaluateEntries { environment with identifier } sofar entries)
  | _, [] => alike_of_quiet (keeps_pure _)
  | sofar, .mk key value :: rest => by
    refine alike_bind (evaluate_alike key) fun key =>
      alike_ite (fun _ => alike_of_quiet (keeps_fault _)) fun _ => ?_
    exact alike_bind (evaluate_alike value) fun value =>
      alike_bind (alike_of_quiet keeps_heap) fun _ => evaluateEntries_alike _ rest

theorem follow_alike : (value : Value) → (segments : List Segment) →
    Alike (follow environment value segments)
      (follow { environment with identifier } value segments)
  | _, [] => alike_of_quiet (keeps_pure _)
  | value, segment :: rest =>
    alike_bind (step_alike value segment) fun part => follow_alike part rest

theorem step_alike : (value : Value) → (segment : Segment) →
    Alike (step environment value segment) (step { environment with identifier } value segment)
  | _, .property _ => alike_bind (alike_of_quiet keeps_heap) fun _ => alike_of_quiet (keeps_pure _)
  | _, .index key => alike_bind (evaluate_alike key) fun _ =>
    alike_bind (alike_of_quiet keeps_heap) fun _ => alike_of_quiet (keeps_ofExcept _)
  | value, .method name arguments => by
    refine alike_bind (evaluateAll_alike arguments) fun arguments => ?_
    split
    · exact callIn_alike environment identifier _ _ _
    · exact alike_of_quiet (callMethod_quiet _ _ _)

theorem assign_alike : (container value : Value) → (segments : List Segment) →
    Alike (assign environment container value segments)
      (assign { environment with identifier } container value segments)
  | _, _, [] => alike_of_quiet (keeps_pure _)
  | container, value, [last] => assignLast_alike container value last
  | container, value, segment :: next :: rest =>
    alike_bind (step_alike container segment) fun part => assign_alike part value (next :: rest)

theorem assignLast_alike : (container value : Value) → (segment : Segment) →
    Alike (assignLast environment container value segment)
      (assignLast { environment with identifier } container value segment)
  | container, value, .property name => alike_of_quiet (assignProperty_quiet container name value)
  | container, value, .index key =>
    alike_bind (evaluate_alike key) fun key =>
      alike_of_quiet (assignElement_quiet container key value)
  | _, _, .method _ _ => alike_of_quiet (keeps_fault _)

/-- **Two runs of a template that would get different identifiers** do the same, or both get at
least one. -/
theorem execute_alike : (nodes : List Node) →
    Alike (execute environment nodes) (execute { environment with identifier } nodes)
  | [] => alike_of_quiet (keeps_pure _)
  | node :: rest => alike_bind (executeNode_alike node) fun _ => execute_alike rest

theorem executeNode_alike : (node : Node) →
    Alike (executeNode environment node) (executeNode { environment with identifier } node)
  | .text _ => alike_of_quiet (keeps_write _)
  | .reference root segments => by
    refine alike_bind (alike_of_quiet (lookup_quiet root)) fun value => ?_
    exact alike_bind (follow_alike value segments) fun _ =>
      alike_bind (alike_of_quiet keeps_heap) fun _ => alike_of_quiet (keeps_write _)
  | .set root segments value => by
    refine alike_bind (evaluate_alike value) fun value =>
      alike_ite (fun _ => alike_of_quiet (keeps_setVariable _ _)) fun _ => ?_
    exact alike_bind (alike_of_quiet (lookup_quiet root)) fun container =>
      assign_alike container value segments
  | .cond branches otherwise => executeBranches_alike (execute_alike otherwise) branches
  | .foreach name items body => by
    refine alike_bind (evaluate_alike items) fun container =>
      alike_bind (alike_of_quiet keeps_heap) fun _ => ?_
    exact alike_bind (alike_of_quiet (keeps_ofExcept _)) fun _ =>
      runForeach_alike (execute_alike body) _ _
  | .breakLoop | .stop => alike_of_quiet (keeps_throw _)
  | .returnValue value => alike_bind (evaluate_alike value) fun _ => alike_of_quiet (keeps_throw _)
  | .console arguments =>
    alike_bind (evaluateAll_alike arguments) fun _ => alike_of_quiet (keeps_pure _)

theorem executeBranches_alike {otherwise otherwise' : Run Unit}
    (alike : Alike otherwise otherwise') : (branches : List Branch) →
    Alike (executeBranches environment otherwise branches)
      (executeBranches { environment with identifier } otherwise' branches)
  | [] => alike
  | .mk test body :: rest => alike_bind (evaluate_alike test) fun _ =>
    alike_ite (fun _ => execute_alike body) fun _ => executeBranches_alike alike rest

end

end

/-! ### Evaluations -/

section

variable {surroundings other : Surroundings} {nodes : List Node} {context : Context}

/-- What an evaluation in a context takes from its surroundings. -/
def Surroundings.environment (surroundings : Surroundings) (context : Context) : Environment where
  now := surroundings.now
  authorization := context.authorization.description
  identifier := surroundings.identifier

/-- A run of nodes in a context. -/
def runNodes (surroundings : Surroundings) (nodes : List Node) (context : Context) :
    EStateM.Result Interrupt State Unit :=
  execute (surroundings.environment context) nodes (startState context)

/-- How many identifiers a run of nodes in a context hands out. -/
def drawn (surroundings : Surroundings) (nodes : List Node) (context : Context) : Nat :=
  (finalState (runNodes surroundings nodes context)).identifiers

theorem finalState_eq_after (step : Run Unit) (state : State) :
    finalState (step state) = step.after state := by
  unfold finalState after
  cases step state <;> rfl

theorem runNodes_of_undrawn (clock : other.now = surroundings.now)
    (undrawn : drawn surroundings nodes context = 0) :
    runNodes other nodes context = runNodes surroundings nodes context := by
  have environments : other.environment context =
      { surroundings.environment context with identifier := other.identifier } := by
    rw [Surroundings.environment, clock]
    rfl
  rw [runNodes, environments]
  rcases execute_alike (surroundings.environment context) other.identifier nodes
    (startState context) with ⟨same, _⟩ | ⟨draws, _⟩
  · exact same.symm
  · rw [drawn, runNodes, finalState_eq_after] at undrawn
    omega

/-- An evaluation is what its run comes to. -/
theorem evaluateNodes_eq (surroundings : Surroundings) (nodes : List Node) (context : Context) :
    evaluateNodes surroundings nodes context =
      (.ofRun (runNodes surroundings nodes context),
        { context with
          stash := stashAfter context (finalState (runNodes surroundings nodes context)).heap }) :=
  rfl

/-- **An evaluation that hands out no identifier** is the same with any others at the same time. -/
theorem evaluateNodes_of_undrawn (clock : other.now = surroundings.now)
    (undrawn : drawn surroundings nodes context = 0) :
    evaluateNodes other nodes context = evaluateNodes surroundings nodes context := by
  rw [evaluateNodes_eq, evaluateNodes_eq, runNodes_of_undrawn clock undrawn]

end

end FieldResolver.Template
