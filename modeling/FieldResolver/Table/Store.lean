/-
**The table store.**

Tables come into being with their first write. A table holds its items under the text of their key
attributes, in the order of these texts, and learns the names of its key attributes from the first
request that writes with a key.

`Store.execute` answers a request and gives the store afterwards. Answers hold plain JSON.
-/

import FieldResolver.Attribute.Value
import FieldResolver.Table.Request

namespace FieldResolver.Table

/-- Why a request fails. -/
inductive Failure where
  | missingOperation
  | unknownOperation (name : String)
  | malformed (operation : Operation)
  | conditionFailed
  | updateMissing
  | queryMissing
  | nextToken (token : String)
  | unknownKey
  | missingKey (name : String)
  | keyChange (name : String)
  | attribute (cause : Attribute.Malformed)
  | expression (cause : ExpressionError)
  | update (cause : UpdateError)

namespace Failure

/-- The wording of a failure. -/
def message : Failure → String
  | .missingOperation => "request is missing an operation"
  | .unknownOperation name => "Unknown operation name: " ++ name
  | .malformed operation => s!"invalid {operation.name} request: malformed fields"
  | .conditionFailed => "The conditional request failed"
  | .updateMissing => "UpdateItem requires an update expression"
  | .queryMissing => "Query requires a query expression"
  | .nextToken token => "invalid nextToken: " ++ token
  | .unknownKey => "table key schema is unknown"
  | .missingKey name => "One of the required keys was not given a value: " ++ name
  | .keyChange name => s!"Cannot update attribute {name}. This attribute is part of the key"
  | .attribute cause => cause.message
  | .expression cause => cause.message
  | .update cause => cause.message

/-- The kind of error that callers see. -/
def kind : Failure → String
  | .conditionFailed => "DynamoDB:ConditionalCheckFailedException"
  | _ => "DynamoDB:ValidationException"

end Failure

/-- What a table holds. -/
structure Contents where
  /-- The names of the key attributes in order; empty as long as they are unknown. -/
  keyNames : List String := []
  /-- The items under the texts of their keys. -/
  items : Index Item := []

/-- The tables by their names. -/
abbrev Store := Dict Contents

/-- The text that an item with these key attributes is stored under: it does not depend on the
order of the attributes. -/
def keyText (key : Item) : String := (Json.object (Index.ofEntries key)).render

namespace Contents

/-- Learns the names of the key attributes if they are unknown. -/
def learnKey (table : Contents) (key : Item) : Contents :=
  if table.keyNames.isEmpty then { table with keyNames := (Index.ofEntries key).map Prod.fst }
  else table

/-- The key attributes of an item. -/
def keyOf (table : Contents) (item : Item) : Except Failure Item :=
  if table.keyNames.isEmpty then .error .unknownKey
  else table.keyNames.foldlM (fun key name =>
    match item.get? name with
    | some value => .ok (key.insert name value)
    | none => .error (.missingKey name)) []

/-- The item with a key. -/
def find? (table : Contents) (key : Item) : Option Item := table.items.get? (keyText key)

/-- Stores an item under a key. -/
def store (table : Contents) (key item : Item) : Contents :=
  { table with items := table.items.insert (keyText key) item }

/-- Removes the item with a key. -/
def remove (table : Contents) (key : Item) : Contents :=
  { table with items := table.items.erase (keyText key) }

end Contents

/-- Checks a condition on an item; one that is missing has no attributes. -/
def checkCondition (condition : Option Expression) (item : Option Item) : Except Failure Unit :=
  match condition with
  | none => .ok ()
  | some expression => do
    let condition ← expression.condition.mapError .expression
    if condition.holds (item.getD []) then .ok () else .error .conditionFailed

/-- An item as plain JSON. -/
def plainItem (item : Item) : Except Failure Json :=
  (Attribute.unmarshalItem item).mapError .attribute

/-- An item as plain JSON, and `null` for none. -/
def plain : Option Item → Except Failure Json
  | some item => plainItem item
  | none => .ok .null

/-- The offset that a token stands for. -/
def offsetOf : Option String → Except Failure Nat
  | none => .ok 0
  | some token =>
    match Decimal.nat? token.toList with
    | some offset => .ok offset
    | none => .error (.nextToken token)

/-- The candidates of a page: the items for which the query holds, in the direction asked for. -/
def candidates (items : List Item) (query : Option (Condition String Operand)) (forward : Bool) :
    List Item :=
  let held := match query with
    | some condition => items.filter fun item => condition.holds item
    | none => items
  if forward then held else held.reverse

/-- A page: the items that pass the filter, the number of items looked at, and where the next page
starts if there is one. -/
structure Page where
  items : List Json
  scanned : Nat
  next : Option Nat

/-- The JSON form of a page. -/
def Page.json (page : Page) : Json :=
  .object
    [("items", .array page.items), ("scannedCount", .int page.scanned),
      ("nextToken",
        Json.ofOption (page.next.map fun offset => .string (Decimal.intText (offset : Int))))]

/-- The page of candidates that starts at an offset and has at most so many as the limit says. -/
def page (candidates : List Item) (filter : Option (Condition String Operand)) (offset : Nat)
    (limit : Option Nat) : Except Failure Page := do
  let last := match limit with
    | some limit => min (offset + limit) candidates.length
    | none => candidates.length
  let scanned := (candidates.take last).drop offset
  let items ← (scanned.filter fun item => filter.all fun condition => condition.holds item).mapM
    plainItem
  return { items, scanned := scanned.length
           next := if last < candidates.length then some last else none }

namespace Store

/-- A table; one that does not exist is empty. -/
def table (store : Store) (name : String) : Contents := (store.get? name).getD {}

/-- Declares the names of a table's key attributes. -/
def createTable (store : Store) (name : String) (keyNames : List String) : Store :=
  Dict.insert store name
    { store.table name with keyNames := keyNames.mergeSort (fun a b => decide (a ≤ b)) }

/-- The number of items in a table. -/
def size (store : Store) (name : String) : Nat := (store.table name).items.length

/-- Answers with the item that has the key. -/
def getItem (store : Store) (name : String) (request : KeyedRequest) : Except Failure Json :=
  plain ((store.table name).find? request.key)

/-- Stores an item made of the attributes and the key. -/
def putItem (table : Contents) (request : KeyedRequest) : Except Failure (Json × Contents) := do
  checkCondition request.condition (table.find? request.key)
  let item := request.attributes.insertAll request.key
  let result ← plainItem item
  return (result, table.store request.key item)

/-- Whether an item has an attribute with a value. -/
def hasAttribute (item : Item) (name : String) (value : Json) : Bool :=
  match item.get? name with
  | some found => found.same value
  | none => false

/-- Updates an item; one that is missing starts with the key. The key must not change. -/
def updateItem (table : Contents) (request : KeyedRequest) (update : Expression.ResolvedUpdate) :
    Except Failure (Json × Contents) := do
  let existing := table.find? request.key
  checkCondition request.condition existing
  let item ← (update.apply (existing.getD request.key)).mapError .update
  match request.key.find? fun entry => !hasAttribute item entry.1 entry.2 with
  | some (name, _) => .error (.keyChange name)
  | none =>
    let result ← plainItem item
    return (result, table.store request.key item)

/-- Removes an item and answers with it. -/
def deleteItem (store : Store) (name : String) (request : KeyedRequest) :
    Except Failure Json × Store :=
  match store.get? name with
  | none => ((checkCondition request.condition none).map fun _ => .null, store)
  | some table =>
    let found := table.find? request.key
    match checkCondition request.condition found with
    | .error failure => (.error failure, store)
    | .ok _ => (plain found, Dict.insert store name (table.remove request.key))

/-- Answers with a page of items. -/
def list (store : Store) (name : String) (operation : Operation) (request : ListRequest) :
    Except Failure Json := do
  let query ← match request.query with
    | some expression => (expression.condition.mapError .expression).map some
    | none => if operation = .query then .error .queryMissing else .ok none
  let filter ← match request.filter with
    | some expression => (expression.condition.mapError .expression).map some
    | none => .ok none
  let offset ← offsetOf request.nextToken
  let candidates := candidates (store.table name).items.values query request.forward
  return (← page candidates filter offset request.limit).json

/-- The answer to a request for several items, of which none is left out. -/
def batchAnswer (leftOut : String) (results : Dict Json) : Json :=
  .object
    [("data", .object results),
      (leftOut, .object (results.map fun entry => (entry.1, .array [])))]

/-- Answers with the items that have the keys. -/
def batchGet (store : Store) (request : BatchRequest) : Except Failure Json := do
  let results ← request.mapM fun (name, keys) => do
    let items ← keys.mapM fun key => plain ((store.table name).find? key)
    Except.ok (name, Json.array items)
  return batchAnswer "unprocessedKeys" results

/-- Stores items one after another under their own keys; those in front of one that fails stay. -/
def putAll (table : Contents) : List Item → Except Failure (List Json) × Contents
  | [] => (.ok [], table)
  | item :: rest =>
    match (do
        let key ← table.keyOf item
        return (key, ← plainItem item) : Except Failure (Item × Json)) with
    | .error failure => (.error failure, table)
    | .ok (key, result) =>
      let (results, table) := putAll (table.store key item) rest
      (results.map (result :: ·), table)

/-- Stores the items of a request table by table. -/
def batchPut (store : Store) : BatchRequest → Except Failure (Dict Json) × Store
  | [] => (.ok [], store)
  | (name, items) :: rest =>
    let (results, table) := putAll (store.table name) items
    let store := Dict.insert store name table
    match results with
    | .error failure => (.error failure, store)
    | .ok results =>
      let (others, store) := batchPut store rest
      (others.map ((name, .array results) :: ·), store)

/-- Removes items one after another and gives them; those in front of one that fails are gone. -/
def removeAll (table : Contents) : List Item → Except Failure (List Json) × Contents
  | [] => (.ok [], table)
  | key :: rest =>
    match plain (table.find? key) with
    | .error failure => (.error failure, table.remove key)
    | .ok result =>
      let (results, table) := removeAll (table.remove key) rest
      (results.map (result :: ·), table)

/-- Removes the items of a request table by table. -/
def batchDelete (store : Store) : BatchRequest → Except Failure (Dict Json) × Store
  | [] => (.ok [], store)
  | (name, keys) :: rest =>
    let (results, store) := match store.get? name with
      | some table =>
        let (results, table) := removeAll table keys
        (results, Dict.insert store name table)
      | none => (.ok (keys.map fun _ => .null), store)
    match results with
    | .error failure => (.error failure, store)
    | .ok results =>
      let (others, store) := batchDelete store rest
      (others.map ((name, .array results) :: ·), store)

/-- Writes to a table that has learned its key from the request, even if the write fails. -/
def write (store : Store) (name : String) (key : Item)
    (change : Contents → Except Failure (Json × Contents)) : Except Failure Json × Store :=
  let table := (store.table name).learnKey key
  match change table with
  | .ok (result, table) => (.ok result, Dict.insert store name table)
  | .error failure => (.error failure, Dict.insert store name table)

/-- The fields of a request for an operation. -/
def fieldsOf {α : Type} (operation : Operation) (request : Json) (read : Json → Option α) :
    Except Failure α :=
  match read request with
  | some fields => .ok fields
  | none => .error (.malformed operation)

/-- Goes on with what was read or answers with a failure and leaves the store alone. -/
def andThen {α : Type} (store : Store) (read : Except Failure α)
    (next : α → Except Failure Json × Store) : Except Failure Json × Store :=
  match read with
  | .ok fields => next fields
  | .error failure => (.error failure, store)

/-- The update of a request that has to have one. -/
def updateOf (request : KeyedRequest) : Except Failure Expression.ResolvedUpdate :=
  match request.update with
  | none => .error .updateMissing
  | some expression => expression.update.mapError .expression

/-- Answers a request for an operation on a table. -/
def perform (store : Store) (name : String) (operation : Operation) (request : Json) :
    Except Failure Json × Store :=
  let keyed := fieldsOf operation request KeyedRequest.ofJson?
  match operation with
  | .getItem => andThen store keyed fun fields => (getItem store name fields, store)
  | .putItem =>
    andThen store keyed fun fields =>
      write store name fields.key fun table => putItem table fields
  | .updateItem =>
    andThen store keyed fun fields =>
      andThen store (updateOf fields) fun update =>
        write store name fields.key fun table => updateItem table fields update
  | .deleteItem => andThen store keyed fun fields => deleteItem store name fields
  | .query | .scan =>
    andThen store (fieldsOf operation request ListRequest.ofJson?) fun fields =>
      (list store name operation fields, store)
  | .batchGetItem =>
    andThen store (fieldsOf operation request (BatchRequest.ofJson? tableKeys?)) fun fields =>
      (batchGet store fields, store)
  | .batchPutItem =>
    andThen store (fieldsOf operation request (BatchRequest.ofJson? items?)) fun fields =>
      let (results, store) := batchPut store fields
      (results.map (batchAnswer "unprocessedItems"), store)
  | .batchDeleteItem =>
    andThen store (fieldsOf operation request (BatchRequest.ofJson? items?)) fun fields =>
      let (results, store) := batchDelete store fields
      (results.map (batchAnswer "unprocessedKeys"), store)

/-- Answers a request to a table. -/
def execute (store : Store) (name : String) (request : Json) : Except Failure Json × Store :=
  match (request.field? "operation").bind Json.string? with
  | none => (.error .missingOperation, store)
  | some operation =>
    match Operation.ofName? operation with
    | some operation => store.perform name operation request
    | none => (.error (.unknownOperation operation), store)

end Store

end FieldResolver.Table
