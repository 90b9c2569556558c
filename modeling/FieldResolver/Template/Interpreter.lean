/-
**Running templates.**

Nodes are executed in order. Expressions are evaluated from left to right; `&&` and `||` skip their
second operand where the first decides. A loop runs over the values that its container holds when
the loop starts, and binds the loop variable and `$foreach` anew for every turn; afterwards both are
as before, however the loop ends.
-/

import FieldResolver.Template.Arithmetic
import FieldResolver.Template.Function.Call
import FieldResolver.Template.Methods

namespace FieldResolver.Template

namespace Run

/-- What a variable is bound to. The built-in functions are found under two names. -/
def lookup (name : String) : Run Value := do
  match (← get).bindings.get? name with
  | some value => return value
  | none => return if name = "util" ∨ name = "utils" then .functions .util else .undefined

/-- Runs a turn of a loop: whether the loop goes on. -/
def turn (body : Run Unit) : Run Bool := fun state =>
  match body state with
  | .ok _ after => .ok true after
  | .error .breakLoop after => .ok false after
  | .error interrupt after => .error interrupt after

/-- Runs a step and then another, however the first ends. -/
def ensuring (step : Run Unit) (last : Run Unit) : Run Unit := fun state =>
  match step state with
  | .ok _ after => last after
  | .error interrupt after =>
    match last after with
    | .ok _ after => .error interrupt after
    | .error other after => .error other after

end Run

/-- What `$foreach` shows in the turn at a place of a number of turns. -/
def loopEntries (place count : Nat) : Dict Value :=
  [("index", .int place), ("count", .int (place + 1)), ("hasNext", .bool (place + 1 < count)),
    ("first", .bool (place == 0)), ("last", .bool (place + 1 == count))]

/-- Runs a loop's body for each value from a place on; `count` is the number of all turns. -/
def runLoop (name : String) (body : Run Unit) (count : Nat) : Nat → List Value → Run Unit
  | _, [] => pure ()
  | place, item :: rest => do
    Run.setVariable name item
    Run.setVariable "foreach" (← Run.newMap (loopEntries place count))
    if ← Run.turn body then runLoop name body count (place + 1) rest

/-- The values that a loop runs over. -/
def loopItems (heap : Heap) : Value → Except Fault (List Value)
  | .list place => .ok (heap.list place)
  | .map place => .ok (heap.map place).values
  | .undefined | .null => .ok []
  | other => .error (.iteration other.kind)

/-- Runs a loop over values and restores the loop variable and `$foreach`. -/
def runForeach (name : String) (body : Run Unit) (items : List Value) : Run Unit := do
  let loopVariable ← Run.takeVariable name
  let loopState ← Run.takeVariable "foreach"
  Run.ensuring (runLoop name body items.length 0 items) do
    Run.restoreVariable name loopVariable
    Run.restoreVariable "foreach" loopState

/-- The property of a value; nothing but maps and the groups of functions has any. -/
def property (heap : Heap) (name : String) : Value → Value
  | .map place => ((heap.map place).get? name).getD .undefined
  | .functions group => ((group.child? name).map .functions).getD .undefined
  | _ => .undefined

/-- The part of a container that an index or a key names. -/
def element (heap : Heap) (container key : Value) : Except Fault Value :=
  match container, key with
  | .undefined, _ | .null, _ => .ok .undefined
  | .list place, .int index =>
    .ok (if 0 ≤ index then (heap.list place).getD index.toNat .undefined else .undefined)
  | .list _, other => .error (.listIndex other.kind)
  | .map place, key =>
    .ok (if key.isNothing then .undefined
      else ((heap.map place).get? (heap.rendered key)).getD .undefined)
  | other, _ => .error (.indexing other.kind)

/-- Assigns to a property. -/
def assignProperty (container : Value) (name : String) (value : Value) : Run Unit := do
  match container with
  | .map place => Run.setMap place (((← Run.heap).map place).insert name value)
  | other => Run.fault (.assignProperty name other.kind)

/-- Assigns to what an index or a key names. -/
def assignElement (container key value : Value) : Run Unit := do
  let heap ← Run.heap
  match container, key with
  | .map place, key =>
    if key.isNothing then Run.fault (.assignIndex .map)
    else Run.setMap place ((heap.map place).insert (heap.rendered key) value)
  | .list place, .int index =>
    let items := heap.list place
    if 0 ≤ index ∧ index < items.length then Run.setList place (items.set index.toNat value)
    else Run.fault (.indexBounds index items.length)
  | other, _ => Run.fault (.assignIndex other.kind)

section

variable (environment : Environment)

mutual

/-- The value of an expression. -/
def evaluate : Expr → Run Value
  | .null => pure .null
  | .bool value => pure (.bool value)
  | .int value => pure (.int value)
  | .float value => pure (.float value)
  | .string text => pure (.string text)
  | .interpolated nodes => do return .string (← Run.captured (execute nodes))
  | .reference root segments => do follow (← Run.lookup root) segments
  | .list items => do Run.newList (← evaluateAll items)
  | .range first last => do
    let first ← evaluate first
    let last ← evaluate last
    Run.newList (← Run.ofExcept (rangeItems first last))
  | .map entries => do Run.newMap (← evaluateEntries [] entries)
  | .not operand => do return .bool !(← evaluate operand).isTruthy
  | .neg operand => do Run.ofExcept (negated (← evaluate operand))
  | .binary op left right => do
    let left ← evaluate left
    if op = .and ∧ left.isTruthy = false then return .bool false
    else if op = .or ∧ left.isTruthy = true then return .bool true
    else
      let right ← evaluate right
      Run.ofExcept (binary (← Run.heap) op left right)

/-- The values of expressions. -/
def evaluateAll : List Expr → Run (List Value)
  | [] => pure []
  | item :: rest => do
    let value ← evaluate item
    return value :: (← evaluateAll rest)

/-- The entries of a map, written into those so far. -/
def evaluateEntries (sofar : Dict Value) : List Entry → Run (Dict Value)
  | [] => pure sofar
  | .mk key value :: rest => do
    let key ← evaluate key
    if key.isNothing then Run.fault .nullMapKey
    else
      let value ← evaluate value
      evaluateEntries (sofar.insert ((← Run.heap).rendered key) value) rest

/-- The value that segments lead to from a value. -/
def follow (value : Value) : List Segment → Run Value
  | [] => pure value
  | segment :: rest => do follow (← step value segment) rest

/-- The value that a segment leads to from a value. -/
def step (value : Value) : Segment → Run Value
  | .property name => do return property (← Run.heap) name value
  | .index key => do
    let key ← evaluate key
    Run.ofExcept (element (← Run.heap) value key)
  | .method name arguments => do
    let arguments ← evaluateAll arguments
    match value with
    | .functions group => Function.callIn environment group name arguments
    | target => callMethod target name arguments

/-- Assigns to the place that segments lead to from a value. -/
def assign (container : Value) (value : Value) : List Segment → Run Unit
  | [] => pure ()
  | [last] => assignLast container value last
  | segment :: next :: rest => do assign (← step container segment) value (next :: rest)

/-- Assigns to the place that a segment leads to from a value. -/
def assignLast (container : Value) (value : Value) : Segment → Run Unit
  | .property name => assignProperty container name value
  | .index key => do assignElement container (← evaluate key) value
  | .method name _ => Run.fault (.assignMethod name)

/-- Executes nodes in order. -/
def execute : List Node → Run Unit
  | [] => pure ()
  | node :: rest => do
    executeNode node
    execute rest

/-- Executes a node. -/
def executeNode : Node → Run Unit
  | .text text => Run.write text
  | .reference root segments => do
    let value ← follow (← Run.lookup root) segments
    Run.write ((← Run.heap).rendered value)
  | .set root segments value => do
    let value ← evaluate value
    if segments.isEmpty then Run.setVariable root value
    else assign (← Run.lookup root) value segments
  | .cond branches otherwise => executeBranches (execute otherwise) branches
  | .foreach name items body => do
    let container ← evaluate items
    runForeach name (execute body) (← Run.ofExcept (loopItems (← Run.heap) container))
  | .breakLoop => throw .breakLoop
  | .stop => throw .stop
  | .returnValue value => do throw (.returned (← evaluate value))
  | .console arguments => do let _ ← evaluateAll arguments

/-- Executes the first branch whose test holds, or else `otherwise`. -/
def executeBranches (otherwise : Run Unit) : List Branch → Run Unit
  | [] => otherwise
  | .mk test body :: rest => do
    if (← evaluate test).isTruthy then execute body else executeBranches otherwise rest

end

end

end FieldResolver.Template
