/-
**Requests to tables.**

A request names its operation and carries what the operation needs. `ofJson?` reads the requests of
one operation each.
-/

import FieldResolver.Json.Record
import FieldResolver.Table.Expression
import FieldResolver.Table.Index

namespace FieldResolver.Table

/-- The operations on tables. -/
inductive Operation where
  | getItem
  | putItem
  | updateItem
  | deleteItem
  | query
  | scan
  | batchGetItem
  | batchPutItem
  | batchDeleteItem
deriving DecidableEq, Repr

namespace Operation

/-- The name of an operation in requests. -/
def name : Operation → String
  | .getItem => "GetItem"
  | .putItem => "PutItem"
  | .updateItem => "UpdateItem"
  | .deleteItem => "DeleteItem"
  | .query => "Query"
  | .scan => "Scan"
  | .batchGetItem => "BatchGetItem"
  | .batchPutItem => "BatchPutItem"
  | .batchDeleteItem => "BatchDeleteItem"

/-- The operation of a name. -/
def ofName? (name : String) : Option Operation :=
  [getItem, putItem, updateItem, deleteItem, query, scan, batchGetItem, batchPutItem,
    batchDeleteItem].find? fun operation => operation.name == name

/-- A name stands for its operation. -/
theorem ofName?_name (operation : Operation) : ofName? operation.name = some operation := by
  cases operation <;> decide

end Operation

/-- Reads an expression with what its placeholders stand for. -/
def Expression.ofJson? (value : Json) : Option Expression := do
  let record ← Json.Record.ofJson? ["expression", "expressionNames", "expressionValues"] value
  let text ← record.required "expression" Json.string?
  let names ← record.defaulted "expressionNames" [] (Json.dictOf? Json.string?)
  let values ← record.defaulted "expressionValues" [] Json.fields?
  some { text, names, values }

/-- A request for one item. -/
structure KeyedRequest where
  key : Item
  attributes : Item := []
  update : Option Expression := none
  condition : Option Expression := none

/-- Reads a request for one item. -/
def KeyedRequest.ofJson? (value : Json) : Option KeyedRequest := do
  let record ← Json.Record.ofJson? ["key", "attributeValues", "update", "condition"] value
  let key ← record.required "key" Json.fields?
  let attributes ← record.defaulted "attributeValues" [] Json.fields?
  let update ← record.nullable "update" Expression.ofJson?
  let condition ← record.nullable "condition" Expression.ofJson?
  some { key, attributes, update, condition }

/-- A request for a page of items. -/
structure ListRequest where
  query : Option Expression := none
  filter : Option Expression := none
  limit : Option Nat := none
  nextToken : Option String := none
  /-- Whether the items come in ascending order of their keys. -/
  forward : Bool := true

/-- Reads a request for a page of items. -/
def ListRequest.ofJson? (value : Json) : Option ListRequest := do
  let record ← Json.Record.ofJson?
    ["query", "filter", "limit", "nextToken", "scanIndexForward"] value
  let query ← record.nullable "query" Expression.ofJson?
  let filter ← record.nullable "filter" Expression.ofJson?
  let limit ← record.nullable "limit" Json.nat?
  let nextToken ← record.nullable "nextToken" Json.string?
  let forward ← record.defaulted "scanIndexForward" true Json.bool?
  some { query, filter, limit, nextToken, forward }

/-- A request for several items of several tables: what it says of each table, by table name. -/
abbrev BatchRequest := Index (List Item)

/-- A list of items or keys. -/
def items? (value : Json) : Option (List Item) := Json.listOf? Json.fields? value

/-- The keys that a request names for a table. -/
def tableKeys? (value : Json) : Option (List Item) := do
  (← Json.Record.ofJson? ["keys"] value).required "keys" items?

/-- Reads a request for several items; `read` reads what it says of a table. -/
def BatchRequest.ofJson? (read : Json → Option (List Item)) (value : Json) :
    Option BatchRequest := do
  let record ← Json.Record.ofJson? ["tables"] value
  (record.required "tables" (Json.dictOf? read)).map Index.ofEntries

end FieldResolver.Table
