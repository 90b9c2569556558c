/-
**The turns of a loop.**

A loop takes the values that its container holds when it starts. Its body may then do what it likes,
to the container as well: the turns are those values, each with the loop variable and a `$foreach` of
its own, until a turn ends with an interrupt. Afterwards the loop variable and `$foreach` are what
they were, unless the loop variable is `$foreach` itself.

* `OpensTurn`: the state in which a turn starts; `Turns`: the states in which the turns of a loop
  start; `EndsLoop`: how the loop ends;
* `runLoop_turns`, `runForeach_turns`: loops over values have such turns;
* **`foreach_turns`**: so has a loop of a template over a list or a map;
* `rebound_get?`, `runForeach_get?`: the two variables after a loop over values;
* **`foreach_restores`**: the two variables after a loop of a template.
-/

import FieldResolver.Proofs.Template.Frames

namespace FieldResolver.Template

/-- The interrupt that a step ends with. -/
def Run.interrupt? {α : Type} (step : Run α) (state : State) : Option Interrupt :=
  match step state with
  | .ok _ _ => none
  | .error interrupt _ => some interrupt

/-- How a loop ends after an interrupt. -/
def Interrupt.leave (interrupt : Interrupt) (after : State) :
    EStateM.Result Interrupt State Unit :=
  match interrupt with
  | .breakLoop => .ok () after
  | interrupt => .error interrupt after

/-- What is left of the interrupt of a turn behind its loop: `#break` ends nothing but the loop. -/
def Interrupt.beyondLoop : Option Interrupt → Option Interrupt
  | some .breakLoop => none
  | interrupt => interrupt

theorem Interrupt.beyondLoop_ne (interrupt : Option Interrupt) :
    beyondLoop interrupt ≠ some .breakLoop := by
  cases interrupt with
  | none => nofun
  | some interrupt => cases interrupt <;> nofun

/-- The values that a list or a map holds, in order. -/
inductive Heap.Contents (heap : Heap) : Value → List Value → Prop
  | list (place : Nat) : Contents heap (.list place) (heap.list place)
  | map (place : Nat) : Contents heap (.map place) (heap.map place).values

/-- Whether two states differ at most in the variables of a loop. -/
structure Besides (name : String) (first second : State) : Prop where
  heap : second.heap = first.heap
  recorded : second.recorded = first.recorded
  output : second.output = first.output
  identifiers : second.identifiers = first.identifiers
  bindings : ∀ other, other ≠ name → other ≠ "foreach" →
    second.bindings.get? other = first.bindings.get? other

/-- What a template reads as a property of `$foreach`. -/
def State.foreach? (state : State) (name : String) : Option Value :=
  (state.bindings.get? "foreach").map (property state.heap name)

/-- Whether `$foreach` shows the turn at a place of a number of turns. -/
structure ShowsTurn (state : State) (place total : Nat) : Prop where
  index : state.foreach? "index" = some (.int place)
  count : state.foreach? "count" = some (.int (place + 1))
  hasNext : state.foreach? "hasNext" = some (.bool (place + 1 < total))
  first : state.foreach? "first" = some (.bool (place = 0))
  last : state.foreach? "last" = some (.bool (place + 1 = total))

/-- Whether a turn for an item starts in a state when the loop has reached another: but for the loop
variable and `$foreach`, which is a new map, it is the state reached. -/
structure OpensTurn (name : String) (place total : Nat) (item : Value) (reached start : State) :
    Prop where
  item : start.bindings.get? name = some item
  shows : ShowsTurn start place total
  new : ∃ entries, start.bindings.get? "foreach" = some (reached.heap.allocMap entries).1 ∧
    start.heap = (reached.heap.allocMap entries).2
  besides : Besides name { reached with heap := start.heap } start

/-- Whether the turns of a loop over values, the first of which is at a place of a number of turns,
start in these states, the loop beginning in a state of its own. -/
structure Turns (name : String) (body : Run Unit) (first total : Nat) (values : List Value)
    (begun : State) (starts : List State) : Prop where
  /-- Each turn is for the value at its place and starts where the one before it ended. -/
  opens : ∀ place start, starts[place]? = some start → ∃ item reached, values[place]? = some item ∧
    (begun :: starts.map body.after)[place]? = some reached ∧
      OpensTurn name (first + place) total item reached start
  /-- No turn but the last ends with an interrupt. -/
  unbroken : ∀ start ∈ starts.dropLast, body.interrupt? start = none
  /-- The turns are for all values unless the last ends with an interrupt. -/
  complete : starts.length = values.length ∨ (starts.getLast?.bind body.interrupt?).isSome

/-- Whether a step ends as a loop does whose turns start in these states: with the interrupt of its
last turn, but for `#break`, and in the state in which that turn ended, but for its variables. -/
structure EndsLoop (name : String) (body : Run Unit) (begun : State) (starts : List State)
    (loop : Run Unit) (state : State) : Prop where
  interrupt :
    loop.interrupt? state = Interrupt.beyondLoop (starts.getLast?.bind body.interrupt?)
  leaves : ∃ reached, (begun :: starts.map body.after).getLast? = some reached ∧
    Besides name reached (loop.after state)

/-! ### States that differ in the variables of a loop -/

namespace Besides

variable {name : String} {first second third : State}

theorem refl (state : State) : Besides name state state := ⟨rfl, rfl, rfl, rfl, fun _ _ _ => rfl⟩

theorem trans (here : Besides name first second) (there : Besides name second third) :
    Besides name first third where
  heap := there.heap.trans here.heap
  recorded := there.recorded.trans here.recorded
  output := there.output.trans here.output
  identifiers := there.identifiers.trans here.identifiers
  bindings other loopVariable loopState :=
    (there.bindings other loopVariable loopState).trans (here.bindings other loopVariable loopState)

theorem of_bindings (state : State) {bindings : Dict Value}
    (same : ∀ other, other ≠ name → other ≠ "foreach" →
      bindings.get? other = state.bindings.get? other) :
    Besides name state { state with bindings } :=
  ⟨rfl, rfl, rfl, rfl, same⟩

variable {own : String} (ofLoop : own = name ∨ own = "foreach")

include ofLoop

theorem ne_of_other {other : String} (loopVariable : other ≠ name) (loopState : other ≠ "foreach") :
    own ≠ other := by
  rintro rfl
  exact ofLoop.elim loopVariable loopState

/-- Unbinding a variable of the loop. -/
theorem erase (state : State) :
    Besides name state { state with bindings := state.bindings.erase own } :=
  of_bindings state fun _ loopVariable loopState =>
    Dict.get?_erase_of_ne _ (ne_of_other ofLoop loopVariable loopState)

/-- Binding a variable of the loop. -/
theorem insert (value : Value) (state : State) :
    Besides name state { state with bindings := state.bindings.insert own value } :=
  of_bindings state fun _ loopVariable loopState =>
    Dict.get?_insert_of_ne _ value (ne_of_other ofLoop loopVariable loopState)

/-- Restoring a variable of the loop. -/
theorem restore (value : Option Value) (state : State) :
    Besides name state ((Run.restoreVariable own value).after state) := by
  cases value with
  | some value => exact insert ofLoop value state
  | none => exact erase ofLoop state

end Besides

/-! ### A turn -/

section

variable {name : String} {body : Run Unit} {first total : Nat} {item : Value} {rest : List Value}
  {begun start : State} {starts : List State}

/-- The state in which a turn starts. -/
def State.opened (state : State) (name : String) (place total : Nat) (item : Value) : State :=
  { state with
    heap := (state.heap.allocMap (loopEntries place total)).2
    bindings := (state.bindings.insert name item).insert "foreach"
      (state.heap.allocMap (loopEntries place total)).1 }

theorem foreach?_opened (state : State) (name : String) (place total : Nat) (item : Value)
    (shown : String) : (state.opened name place total item).foreach? shown =
      some (((loopEntries place total).get? shown).getD .undefined) := by
  rw [State.foreach?, State.opened, Dict.get?_insert_self, Option.map_some, Heap.allocMap, property]
  rw [← Heap.allocMap, Heap.map_allocMap]

theorem opened_showsTurn (state : State) (name : String) (place total : Nat) (item : Value) :
    ShowsTurn (state.opened name place total item) place total := by
  constructor <;> rw [foreach?_opened] <;> simp [loopEntries, Dict.get?, beq_eq_decide]

/-- A turn opens where the loop has arrived, also if that is only known but for its variables. -/
theorem opens_opened {state : State} (other : name ≠ "foreach") (near : Besides name begun state)
    (place total : Nat) (item : Value) :
    OpensTurn name place total item begun (state.opened name place total item) where
  item := by
    rw [State.opened, Dict.get?_insert_of_ne _ _ (Ne.symm other), Dict.get?_insert_self]
  shows := opened_showsTurn state name place total item
  new := by
    refine ⟨loopEntries place total, ?_, ?_⟩
    · rw [State.opened, Dict.get?_insert_self, near.heap]
    · rw [State.opened, near.heap]
  besides := by
    have bound := (near.trans (.insert (.inl rfl) item state)).trans
      (.insert (.inr rfl) (state.heap.allocMap (loopEntries place total)).1 _)
    exact ⟨rfl, bound.recorded, bound.output, bound.identifiers, bound.bindings⟩

/-- What a loop does for a value and those behind it. -/
theorem runLoop_cons (name : String) (body : Run Unit) (total place : Nat) (item : Value)
    (rest : List Value) (state : State) :
    runLoop name body total place (item :: rest) state =
      match body (state.opened name place total item) with
      | .ok _ after => runLoop name body total (place + 1) rest after
      | .error interrupt after => interrupt.leave after := by
  show EStateM.bind (Run.turn body) _ (state.opened name place total item) = _
  rw [EStateM.bind, Run.turn]
  cases body (state.opened name place total item) with
  | ok => rfl
  | error interrupt after => cases interrupt <;> rfl

theorem Turns.nil : Turns name body first total [] begun [] where
  opens _ _ := nofun
  unbroken _ := nofun
  complete := .inl rfl

theorem Turns.last (opens : OpensTurn name first total item begun start)
    (interrupted : (body.interrupt? start).isSome) :
    Turns name body first total (item :: rest) begun [start] where
  opens place state found := by
    obtain ⟨rfl, rfl⟩ : place = 0 ∧ start = state := by
      cases place with
      | zero => exact ⟨rfl, Option.some.inj found⟩
      | succ => cases found
    exact ⟨item, begun, rfl, rfl, opens⟩
  unbroken _ := nofun
  complete := .inr interrupted

theorem getLast?_bind_cons (goes : body.interrupt? start = none) :
    (start :: starts).getLast?.bind body.interrupt? = starts.getLast?.bind body.interrupt? := by
  rw [List.getLast?_cons]
  cases starts.getLast? with
  | none => exact goes
  | some last => rfl

theorem Turns.cons (opens : OpensTurn name first total item begun start)
    (goes : body.interrupt? start = none)
    (later : Turns name body (first + 1) total rest (body.after start) starts) :
    Turns name body first total (item :: rest) begun (start :: starts) where
  opens place state found := by
    cases place with
    | zero =>
      cases found
      exact ⟨item, begun, rfl, rfl, opens⟩
    | succ place =>
      obtain ⟨value, reached, held, before, here⟩ := later.opens place state found
      rw [Nat.add_right_comm] at here
      exact ⟨value, reached, held, before, here⟩
  unbroken state member := by
    cases starts with
    | nil => cases member
    | cons next others =>
      rcases List.mem_cons.mp member with rfl | member
      · exact goes
      · exact later.unbroken state member
  complete := by
    rw [getLast?_bind_cons goes]
    exact later.complete.imp_left (congrArg (· + 1))

theorem EndsLoop.cons {loop whole : Run Unit} {state middle : State}
    (goes : body.interrupt? start = none) (same : whole state = loop middle)
    (later : EndsLoop name body (body.after start) starts loop middle) :
    EndsLoop name body begun (start :: starts) whole state where
  interrupt := by
    rw [getLast?_bind_cons goes, ← later.interrupt, Run.interrupt?, same, Run.interrupt?]
  leaves := by
    obtain ⟨reached, last, besides⟩ := later.leaves
    refine ⟨reached, ?_, ?_⟩
    · rwa [List.map_cons, List.getLast?_cons_cons]
    · rwa [Run.after, same]

theorem EndsLoop.last {loop : Run Unit} {state after : State} {interrupt : Interrupt}
    (ran : body start = .error interrupt after)
    (same : loop state = interrupt.leave after) :
    EndsLoop name body begun [start] loop state where
  interrupt := by
    rw [List.getLast?_singleton, Option.bind_some, Run.interrupt?, Run.interrupt?, same, ran]
    cases interrupt <;> rfl
  leaves := by
    have left : loop.after state = body.after start := by
      rw [Run.after, Run.after, same, ran]
      cases interrupt <;> rfl
    refine ⟨body.after start, rfl, ?_⟩
    rw [left]
    exact .refl _

end

/-! ### Loops over values -/

section

variable {name : String} (other : name ≠ "foreach") (body : Run Unit) (values : List Value)

include other

/-- **A loop over values runs its body for them in turn**, from a place on, until a turn ends with an
interrupt. -/
theorem runLoop_turns (total : Nat) {first : Nat} {begun state : State}
    (near : Besides name begun state) :
    ∃ starts, Turns name body first total values begun starts ∧
      EndsLoop name body begun starts (runLoop name body total first values) state := by
  induction values generalizing first begun state with
  | nil => exact ⟨[], .nil, rfl, begun, rfl, near⟩
  | cons item rest ih =>
    have opens := opens_opened other near first total item
    have steps := runLoop_cons name body total first item rest state
    cases ran : body (state.opened name first total item) with
    | ok _ after =>
      have goes : body.interrupt? (state.opened name first total item) = none := by
        rw [Run.interrupt?, ran]
      have left : after = body.after (state.opened name first total item) := by
        rw [Run.after, ran]
      rw [ran, left] at steps
      obtain ⟨starts, turns, ends⟩ := @ih (first + 1) _ _ (.refl _)
      exact ⟨_, .cons opens goes turns, .cons goes steps ends⟩
    | error interrupt after =>
      have interrupted : (body.interrupt? (state.opened name first total item)).isSome := by
        rw [Run.interrupt?, ran]
        rfl
      rw [ran] at steps
      exact ⟨_, .last opens interrupted, .last ran steps⟩

end

/-- What is done at the end without an interrupt adds none. -/
theorem Run.interrupt?_ensuring (step : Run Unit) {last : Run Unit}
    (goes : ∀ state, last.interrupt? state = none) (state : State) :
    (ensuring step last).interrupt? state = step.interrupt? state := by
  unfold interrupt? ensuring
  cases step state with
  | ok _ after => exact goes after
  | error interrupt after =>
    have none := goes after
    unfold interrupt? at none
    cases ended : last after with
    | ok => simp only [ended]
    | error => rw [ended] at none; cases none

/-- A state without the variables of a loop. -/
def State.unbound (state : State) (name : String) : State :=
  { state with bindings := (state.bindings.erase name).erase "foreach" }

/-- A state with the variables of a loop bound as they were in another, in the order in which a loop
does so: the first is unbound when the second is looked up. -/
def State.rebound (state : State) (name : String) (begun : State) : State :=
  (Run.restoreVariable "foreach" ((begun.bindings.erase name).get? "foreach")).after
    ((Run.restoreVariable name (begun.bindings.get? name)).after state)

section

variable (name : String) (body : Run Unit) (values : List Value) (state : State)

theorem after_runForeach : (runForeach name body values).after state =
    ((runLoop name body values.length 0 values).after (state.unbound name)).rebound name state := by
  show (Run.ensuring (runLoop name body values.length 0 values) _).after (state.unbound name) = _
  rw [Run.after_ensuring, State.rebound]
  cases state.bindings.get? name <;> rfl

theorem interrupt?_runForeach : (runForeach name body values).interrupt? state =
    (runLoop name body values.length 0 values).interrupt? (state.unbound name) := by
  show (Run.ensuring (runLoop name body values.length 0 values) _).interrupt?
    (state.unbound name) = _
  refine Run.interrupt?_ensuring _ (fun ended => ?_) _
  cases state.bindings.get? name <;> cases (state.bindings.erase name).get? "foreach" <;> rfl

end

theorem besides_unbound (state : State) (name : String) :
    Besides name state (state.unbound name) :=
  (Besides.erase (.inl rfl) state).trans (.erase (.inr rfl) _)

theorem besides_rebound (state begun : State) (name : String) :
    Besides name state (state.rebound name begun) :=
  (Besides.restore (.inl rfl) _ state).trans (.restore (.inr rfl) _ _)

/-- A loop that takes its variables and restores them has the turns of the loop inside. -/
theorem runForeach_turns {name : String} (other : name ≠ "foreach") (body : Run Unit)
    (values : List Value) (begun : State) :
    ∃ starts, Turns name body 0 values.length values begun starts ∧
      EndsLoop name body begun starts (runForeach name body values) begun := by
  obtain ⟨starts, turns, ends⟩ :=
    runLoop_turns other body values values.length (besides_unbound begun name)
  obtain ⟨reached, last, besides⟩ := ends.leaves
  refine ⟨starts, turns, ?_, reached, last, ?_⟩
  · rw [interrupt?_runForeach, ends.interrupt]
  · rw [after_runForeach]
    exact besides.trans (besides_rebound _ begun name)

/-! ### Loops of a template -/

section

variable (environment : Environment) {name : String} {items : Expr} {before begun : State}
  {container : Value} (evaluated : evaluate environment items before = .ok container begun)
  (body : List Node)

include evaluated

/-- What a loop of a template does once its container is known. -/
theorem executeNode_foreach :
    executeNode environment (.foreach name items body) before =
      match loopItems begun.heap container with
      | .ok values => runForeach name (execute environment body) values begun
      | .error cause => .error (.fault cause) begun := by
  have seen : Run.heap begun = .ok begun.heap begun := rfl
  rw [executeNode, Run.bind_of_ok evaluated, Run.bind_of_ok seen]
  cases loopItems begun.heap container <;> rfl

/-- **A loop over a list or a map runs its body for the values held when it starts**, whatever the
body does: once for each of them and in order, with the loop variable and `$foreach` bound anew. It
ends earlier only where its body ends with an interrupt. It ends with that interrupt then, but for
`#break`, which ends this loop and no other. -/
theorem foreach_turns (other : name ≠ "foreach") {values : List Value}
    (held : begun.heap.Contents container values) :
    ∃ starts, Turns name (execute environment body) 0 values.length values begun starts ∧
      EndsLoop name (execute environment body) begun starts
        (executeNode environment (.foreach name items body)) before ∧
      (executeNode environment (.foreach name items body)).interrupt? before ≠ some .breakLoop := by
  have known : loopItems begun.heap container = .ok values := by cases held <;> rfl
  have same := @executeNode_foreach environment name _ _ _ _ evaluated body
  rw [known] at same
  obtain ⟨starts, turns, ends⟩ := runForeach_turns other (execute environment body) values begun
  have interrupt : (executeNode environment (.foreach name items body)).interrupt? before =
      Interrupt.beyondLoop (starts.getLast?.bind (execute environment body).interrupt?) := by
    rw [← ends.interrupt, Run.interrupt?, same, Run.interrupt?]
  refine ⟨starts, turns, ⟨interrupt, ?_⟩, ?_⟩
  · rw [Run.after, same]
    exact ends.leaves
  · rw [interrupt]
    exact Interrupt.beyondLoop_ne _

end

/-! ### A loop whose body empties its list -/

/-- Surroundings in which no time has passed. -/
def Environment.still : Environment := ⟨0, "", fun _ => ""⟩

namespace Emptied

/-- One list under two names. -/
def begun : State where
  heap := { lists := #[[.int 1, .int 2, .int 3]] }
  bindings := [("xs", .list 0), ("alias", .list 0)]

/-- The body of `#foreach($x in $xs)$alias.clear()$x#end`. -/
def body : List Node := [.reference "alias" [.method "clear" []], .reference "x" []]

/-- **The body runs for all values**, though its first turn empties the list. -/
theorem runs_for_all_values :
    (∃ starts, Turns "x" (execute .still body) 0 3 [.int 1, .int 2, .int 3] begun starts ∧
      EndsLoop "x" (execute .still body) begun starts
        (executeNode .still (.foreach "x" (.reference "xs" []) body)) begun ∧
      (executeNode .still (.foreach "x" (.reference "xs" []) body)).interrupt? begun ≠
        some .breakLoop) ∧
      ((executeNode .still (.foreach "x" (.reference "xs" []) body)).after begun).output =
        "123" := by
  have evaluated : evaluate .still (.reference "xs" []) begun = .ok (.list 0) begun := rfl
  refine ⟨foreach_turns .still evaluated body (by decide) (.list 0), ?_⟩
  decide +kernel

end Emptied

/-! ### The variables of a loop afterwards -/

namespace Run

theorem restoreVariable_get? {state : State} (distinct : state.Distinct) (name other : String)
    (value : Option Value) : ((restoreVariable name value).after state).bindings.get? other =
      if name = other then value else state.bindings.get? other := by
  cases value with
  | some value => exact Dict.get?_insert _ name other value
  | none =>
    split
    · rename_i same
      rw [← same]
      exact Dict.get?_erase_self distinct name
    · exact Dict.get?_erase_of_ne _ ‹_›

theorem restoreVariable_distinct {state : State} (distinct : state.Distinct) (name : String)
    (value : Option Value) : ((restoreVariable name value).after state).Distinct :=
  relates_restoreVariable rebinds_distinct name value state distinct

end Run

/-- What the variables of a loop are bound to once they are restored. The loop variable is restored
first: where it is `$foreach` itself, what was bound is lost. -/
theorem rebound_get? {state begun : State} (distinct : state.Distinct) (before : begun.Distinct)
    {name own : String} (ofLoop : own = name ∨ own = "foreach") :
    (state.rebound name begun).bindings.get? own =
      if name = "foreach" then none else begun.bindings.get? own := by
  have first := Run.restoreVariable_distinct distinct name (begun.bindings.get? name)
  rw [State.rebound, Run.restoreVariable_get? first, Run.restoreVariable_get? distinct]
  by_cases same : name = "foreach"
  · subst same
    rw [if_pos rfl, if_pos (or_self_iff.mp ofLoop).symm]
    exact Dict.get?_erase_self before "foreach"
  · rw [if_neg same]
    rcases ofLoop with rfl | rfl
    · rw [if_neg (Ne.symm same), if_pos rfl]
    · rw [if_pos rfl]
      exact Dict.get?_erase_of_ne _ same

/-- A loop over values whose body keeps the names of variables distinct. -/
theorem runForeach_get? {body : Run Unit} (keeps : Run.Relates State.Distinct Implies body)
    {begun : State} (distinct : begun.Distinct) (values : List Value) {name own : String}
    (ofLoop : own = name ∨ own = "foreach") :
    ((runForeach name body values).after begun).bindings.get? own =
      if name = "foreach" then none else begun.bindings.get? own := by
  have unbound : (begun.unbound name).Distinct :=
    Dict.keys_erase_nodup (Dict.keys_erase_nodup distinct name) "foreach"
  have ended := Run.relates_runLoop rebinds_distinct (fun _ => (Run.confined_newMap _).relates
    (fun _ _ => rfl)) keeps name values.length 0 values (begun.unbound name) unbound
  rw [after_runForeach]
  exact rebound_get? ended distinct ofLoop

/-- **After a loop its variables are what they were when it started**, however the loop ends and
whatever its body does, unless the loop variable is `$foreach`: then that is unbound. The names of
variables are distinct in every run of a template (`startState_distinct`, `execute_distinct`). -/
theorem foreach_restores (environment : Environment) {name : String} {items : Expr}
    {before begun : State} {container : Value} (distinct : before.Distinct)
    (evaluated : evaluate environment items before = .ok container begun) (body : List Node)
    {own : String} (ofLoop : own = name ∨ own = "foreach") :
    ((executeNode environment (.foreach name items body)).after before).bindings.get? own =
      if name = "foreach" ∧ (loopItems begun.heap container).isOk then none
      else begun.bindings.get? own := by
  have begins : begun.Distinct := by
    have kept := evaluate_relates (respects_distinct environment) items before distinct
    rwa [Run.after, evaluated] at kept
  rw [Run.after, executeNode_foreach environment evaluated body]
  cases iterated : loopItems begun.heap container with
  | error cause =>
    have stuck : (.error cause : Except Fault (List Value)).isOk = false := rfl
    simp only [stuck, Bool.false_eq_true, and_false, if_false]
  | ok values =>
    have iterable : (.ok values : Except Fault (List Value)).isOk = true := rfl
    simp only [iterable, and_true]
    exact runForeach_get? (execute_relates (respects_distinct environment) body) begins values
      ofLoop

/-! ### Loops over `$foreach` -/

namespace Renamed

/-- A state within another loop. -/
def within : State where
  bindings := [("foreach", .int 1), ("x", .int 5)]

/-- The body of `#foreach($x in [2])#set($foreach = 3)#stop#end`. -/
def body : List Node := [.set "foreach" [] (.int 3), .stop]

/-- **A loop within another** leaves the variables of both alone. -/
theorem restored_after_stop :
    (((executeNode .still (.foreach "x" (.list [.int 2]) body)).after within).bindings.get? "x" =
        some (.int 5)) ∧
      ((executeNode .still (.foreach "x" (.list [.int 2]) body)).after within).bindings.get?
        "foreach" = some (.int 1) := by
  have distinct : within.Distinct := show ["foreach", "x"].Nodup by decide
  have evaluated : evaluate .still (.list [.int 2]) within =
      .ok (.list 0) { within with heap := { lists := #[[.int 2]] } } := rfl
  exact ⟨foreach_restores .still distinct evaluated body (.inl rfl),
    foreach_restores .still distinct evaluated body (.inr rfl)⟩

def assignment : Node := .set "foreach" [] (.int 1)

/-- The loop `#foreach($foreach in [2])#end`. -/
def loop : Node := .foreach "foreach" (.list [.int 2]) []

/-- What a template writes. -/
def written (source : String) : Option String :=
  (parse source.toList).toOption.map fun nodes => ((execute .still nodes).after {}).output

/-- **A loop over `$foreach` unbinds it**, although it was bound when the loop started. -/
theorem unbound_by_its_loop :
    written "#set($foreach = 1)\"$foreach\"" = some "\"1\"" ∧
      written "#set($foreach = 1)#foreach($foreach in [2])#end\"$foreach\"" = some "\"\"" ∧
      ((executeNode .still assignment).after {}).bindings.get? "foreach" = some (.int 1) ∧
      ((executeNode .still loop).after
        ((executeNode .still assignment).after {})).bindings.get? "foreach" = none := by
  refine ⟨?_, ?_, rfl, rfl⟩
  · decide +kernel
  · decide +kernel

end Renamed

end FieldResolver.Template
