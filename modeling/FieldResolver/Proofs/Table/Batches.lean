/-
**Batches and single requests.**

A batch that succeeds gives the values that the requests for its single entries give when they are
sent one after another, the tables in the order of their names and the entries of each in the order
of the batch, and it leaves the same tables behind. Repeated keys and tables that do not exist are
no exceptions.

* `singleRequest`, `singles`: the requests for the entries of a batch;
* `Store.Serves`: requests that succeed one after another, with their values and the store behind
  them; `Serves.append` puts two such sequences together;
* `serves_finds`, `serves_putAll`, `serves_removeAll`: the entries of one table;
* `serves_batchGet`, `serves_batchPut`, `serves_batchDelete`: the tables of a batch;
* `batch_serves`: what a batch that succeeds has in common with its single requests.
-/

import FieldResolver.Proofs.Table.Creation
import FieldResolver.Proofs.Table.KeyNames

namespace FieldResolver.Table

open Fallible

/-! ### The requests for single entries -/

/-- A request for one key of a table. -/
def keyRequest (operation : Operation) (key : Item) : Json :=
  .object [("operation", .string operation.name), ("key", .object key)]

/-- A request to put an item under a key. -/
def putRequest (key item : Item) : Json :=
  .object
    [("operation", .string Operation.putItem.name), ("key", .object key),
      ("attributeValues", .object item)]

/-- The request for a single entry of a batch. An item is put under its own key attributes. -/
def singleRequest (operation : Operation) (table : Contents) (entry : Item) : Json :=
  match operation with
  | .batchPutItem => putRequest ((table.keyOf entry).toOption.getD []) entry
  | .batchDeleteItem => keyRequest .deleteItem entry
  | _ => keyRequest .getItem entry

/-- The requests for the entries of one table. -/
def singlesFor (operation : Operation) (table : Contents) (name : String) (entries : List Item) :
    List Sent :=
  entries.map fun entry => (name, singleRequest operation table entry)

/-- The requests for the entries of a batch, table by table. -/
def singles (operation : Operation) (store : Store) (tables : BatchRequest) : List Sent :=
  tables.flatMap fun (name, entries) => singlesFor operation (store.table name) name entries

/-- The tables and entries of a batch, if the request is one and can be read. -/
def batchOf? (operation : Operation) (request : Json) : Option BatchRequest :=
  match operation with
  | .batchGetItem => BatchRequest.ofJson? tableKeys? request
  | .batchPutItem | .batchDeleteItem => BatchRequest.ofJson? items? request
  | _ => none

/-- How the answer to a batch calls what it leaves out. -/
def leftOut : Operation → String
  | .batchPutItem => "unprocessedItems"
  | _ => "unprocessedKeys"

/-- The results of a batch in an answer: the values for each table. -/
def resultsJson (results : Dict (List Json)) : Dict Json := results.mapValues .array

/-- Whether the results of a batch give one value for every entry of every table, in order. -/
def Matching (tables : BatchRequest) (results : Dict (List Json)) : Prop :=
  List.Forall₂ (fun table result => result.1 = table.1 ∧ result.2.length = table.2.length)
    tables results

section

variable {operation : Operation} {request : Json} {key item : Item}

theorem operation?_keyRequest : operation? (keyRequest operation key) = some operation := by
  simp [operation?, keyRequest, Json.field?, Json.object?, Json.string?, Dict.get?,
    Operation.ofName?_name]

theorem operation?_putRequest : operation? (putRequest key item) = some .putItem := by
  simp [operation?, putRequest, Json.field?, Json.object?, Json.string?, Dict.get?,
    Operation.ofName?_name]

theorem ofJson?_keyRequest (formed : WellFormed key) :
    KeyedRequest.ofJson? (keyRequest operation key) = some { key } := by
  have fields := Json.fields?_of_valid ⟨formed.distinct, formed.valid⟩
  simp [KeyedRequest.ofJson?, keyRequest, Json.Record.ofJson?, Json.Record.ofObject?,
    Json.Record.distinct, Json.Record.required, Json.Record.defaulted, Json.Record.nullable,
    Dict.get?, fields]

theorem ofJson?_putRequest (formed : WellFormed key) (formedItem : WellFormed item) :
    KeyedRequest.ofJson? (putRequest key item) = some { key, attributes := item } := by
  have fields := Json.fields?_of_valid ⟨formed.distinct, formed.valid⟩
  have attributes := Json.fields?_of_valid ⟨formedItem.distinct, formedItem.valid⟩
  simp [KeyedRequest.ofJson?, putRequest, Json.Record.ofJson?, Json.Record.ofObject?,
    Json.Record.distinct, Json.Record.required, Json.Record.defaulted, Json.Record.nullable,
    Dict.get?, fields, attributes]

/-- The keys that a valid request names for its tables are well-formed. -/
theorem BatchRequest.keys_formed {tables : BatchRequest} (valid : request.Valid)
    (read : BatchRequest.ofJson? tableKeys? request = some tables) :
    ∀ entry ∈ tables, ∀ key ∈ entry.2, WellFormed key := by
  obtain ⟨record, made, read⟩ := Option.bind_eq_some_iff.mp read
  obtain ⟨entries, given, rfl⟩ := Option.map_eq_some_iff.mp read
  obtain ⟨value, found, given⟩ := Json.Record.of_required given
  have all := Json.of_dictOf? (Json.Record.valid_of_get? valid made found) given
  intro entry member key inKeys
  obtain ⟨field, validField, keys⟩ := all entry (Index.mem_of_mem_ofEntries member)
  obtain ⟨inner, madeInner, keys⟩ := Option.bind_eq_some_iff.mp keys
  obtain ⟨list, foundList, keys⟩ := Json.Record.of_required keys
  have validList := Json.Record.valid_of_get? validField madeInner foundList
  obtain ⟨one, validOne, fields⟩ := Json.of_listOf? validList keys key inKeys
  exact wellFormed_of_fields? validOne fields

/-- A batch names its tables in order. -/
theorem batchOf?_ascending {tables : BatchRequest}
    (read : batchOf? operation request = some tables) : tables.Ascending := by
  cases operation with
  | batchGetItem | batchPutItem | batchDeleteItem => exact BatchRequest.ascending read
  | _ => cases read

/-- The entries of a valid batch are well-formed. -/
theorem batchOf?_formed {tables : BatchRequest} (valid : request.Valid)
    (read : batchOf? operation request = some tables) :
    ∀ entry ∈ tables, ∀ item ∈ entry.2, WellFormed item := by
  cases operation with
  | batchGetItem => exact BatchRequest.keys_formed valid read
  | batchPutItem | batchDeleteItem => exact BatchRequest.items_formed valid read
  | _ => cases read

end

/-! ### Requests one after another -/

namespace Store

variable {store middle last : Store} {front back : List Sent} {values others : List Json}

/-- Whether requests succeed one after another, with these values and this store behind them. -/
structure Serves (store : Store) (requests : List Sent) (values : List Json) (last : Store) :
    Prop where
  answered : store.answers requests = values.map .ok
  agree : last.Agree (store.after requests)

theorem answers_append (store : Store) (front back : List Sent) :
    store.answers (front ++ back) = store.answers front ++ (store.after front).answers back := by
  induction front generalizing store with
  | nil => rfl
  | cons sent rest ih =>
    rw [List.cons_append, answers, answers, ih, List.cons_append]
    rfl

/-- The same requests lead stores with the same tables to stores with the same tables. -/
theorem Agree.after {first second : Store} (agree : Agree first second) (requests : List Sent) :
    Agree (first.after requests) (second.after requests) := by
  induction requests generalizing first second with
  | nil => exact agree
  | cons sent rest ih => exact ih (execute_alike agree sent.1 sent.2).2

theorem serves_nil (agree : Agree last store) : store.Serves [] [] last := ⟨rfl, agree⟩

/-- A request that succeeds. -/
theorem serves_single {name : String} {request value : Json} {after : Store}
    (done : store.execute name request = (.ok value, after)) (agree : Agree last after) :
    store.Serves [(name, request)] [value] last where
  answered := by
    simp only [answers, done]
    rfl
  agree := by
    have step : store.after [(name, request)] = after := congrArg Prod.snd done
    rwa [step]

/-- Two sequences of requests one after the other. -/
theorem Serves.append (first : store.Serves front values middle)
    (second : middle.Serves back others last) :
    store.Serves (front ++ back) (values ++ others) last where
  answered := by
    rw [answers_append, first.answered, ← answers_agree first.agree, second.answered,
      List.map_append]
  agree := by
    rw [after_append]
    exact second.agree.trans (first.agree.after back)

/-- A request that succeeds, and requests that go on from there. -/
theorem Serves.cons {name : String} {request value : Json} {after : Store}
    (done : store.execute name request = (.ok value, after)) (agree : Agree middle after)
    (below : middle.Serves back others last) :
    store.Serves ((name, request) :: back) (value :: others) last :=
  (serves_single done agree).append below

/-! ### Single requests -/

section

variable {name : String} {key item : Item} {value : Json}

/-- A request to read a key. -/
theorem execute_getKey (formed : WellFormed key) :
    store.execute name (keyRequest .getItem key) =
      (plain ((store.table name).find? key), store) :=
  execute_getItem store name operation?_keyRequest (ofJson?_keyRequest formed)

/-- A request to delete a key. -/
theorem execute_deleteKey (formed : WellFormed key) :
    ∃ after, store.execute name (keyRequest .deleteItem key) =
        (plain ((store.table name).find? key), after) ∧
      Agree after (Dict.insert store name ((store.table name).remove key)) := by
  rw [execute_deleteItem store name operation?_keyRequest (ofJson?_keyRequest formed)]
  exact deleteItem_of_ok rfl

/-- Writing the key attributes of an item into the item changes nothing. -/
theorem insertAll_keyOf {table : Contents} (read : table.keyOf item = .ok key) :
    item.insertAll key = item := by
  have carries : ∀ entry ∈ key, item.get? entry.1 = some entry.2 := by
    refine keyOf_keeps read (fun key => ∀ entry ∈ key, item.get? entry.1 = some entry.2)
      (fun _ member => absurd member List.not_mem_nil) ?_
    intro before name value found holds entry member
    rcases Dict.mem_insert member with rfl | inBefore
    · exact found
    · exact holds entry inBefore
  clear read
  induction key with
  | nil => rfl
  | cons entry rest ih =>
    obtain ⟨here, others⟩ := List.forall_mem_cons.mp carries
    rw [Dict.insertAll_cons, Dict.insert_of_get? here]
    exact ih others

/-- A request to put an item under its own key attributes. -/
theorem execute_putOwn (formed : WellFormed item)
    (read : (store.table name).keyOf item = .ok key) (plain : plainItem item = .ok value) :
    store.execute name (putRequest key item) =
      (.ok value, Dict.insert store name ((store.table name).store key item)) := by
  have known : (store.table name).learnKey key = store.table name :=
    (learnKey_eq_self _ _).mpr fun unknown => (Contents.keyOf_get? read).1 unknown.1
  have change : putItem (store.table name) { key, attributes := item } =
      .ok (value, (store.table name).store key item) := by
    simp only [putItem, checkCondition, insertAll_keyOf read, plain]
    rfl
  rw [execute_putItem store name operation?_putRequest
    (ofJson?_putRequest (formed.keyOf read) formed),
    write]
  simp only [known, change]

end

/-! ### The entries of one table -/

section

variable {name : String} {items keys : List Item}

/-- Reading the keys of a table. -/
theorem serves_finds (formed : ∀ key ∈ keys, WellFormed key)
    (done : (keys.mapM fun key => plain ((store.table name).find? key)) = .ok values) :
    store.Serves (singlesFor .batchGetItem (store.table name) name keys) values store := by
  induction keys generalizing values with
  | nil =>
    cases done
    exact serves_nil fun _ => rfl
  | cons key rest ih =>
    obtain ⟨formedKey, formedRest⟩ := List.forall_mem_cons.mp formed
    rw [List.mapM_cons] at done
    obtain ⟨value, here, done⟩ := bind_ok done
    obtain ⟨others, below, done⟩ := bind_ok done
    cases done
    have single : store.execute name (keyRequest .getItem key) =
        (plain ((store.table name).find? key), store) := execute_getKey formedKey
    rw [here] at single
    exact .cons single (fun _ => rfl) (ih formedRest below)

/-- The requests for entries depend on the names of a table's key attributes alone. -/
theorem singlesFor_congr {operation : Operation} {first second : Contents}
    (same : first.keyNames = second.keyNames) (entries : List Item) :
    singlesFor operation first name entries = singlesFor operation second name entries := by
  have keys (item : Item) : first.keyOf item = second.keyOf item := by
    unfold Contents.keyOf
    rw [same]
  unfold singlesFor singleRequest
  simp only [keys]

/-- A request that writes a table, and requests that go on from there. -/
theorem Serves.behind {table final : Contents} {request value : Json} {after : Store}
    (done : store.execute name request = (.ok value, after))
    (agree : Agree after (Dict.insert store name table))
    (below : Serves (Dict.insert store name table) back others
      (Dict.insert (Dict.insert store name table) name final)) :
    store.Serves ((name, request) :: back) (value :: others) (Dict.insert store name final) := by
  rw [Dict.insert_insert] at below
  exact .cons done agree.symm below

/-- Putting the items of a table. -/
theorem serves_putAll (formed : ∀ item ∈ items, WellFormed item)
    (done : (putAll (store.table name) items).1 = .ok values) :
    store.Serves (singlesFor .batchPutItem (store.table name) name items) values
      (Dict.insert store name (putAll (store.table name) items).2) := by
  induction items generalizing store values with
  | nil =>
    cases done
    exact serves_nil (agree_insert_table store name)
  | cons item rest ih =>
    obtain ⟨formedItem, formedRest⟩ := List.forall_mem_cons.mp formed
    rcases putAll_cons (store.table name) item with
      ⟨_, failure, failed⟩ | ⟨key, value, read, plain, put⟩
    · rw [failed] at done
      cases done
    · rw [put] at done ⊢
      obtain ⟨others, below, rfl⟩ := map_ok done
      have single := execute_putOwn formedItem read plain
      have request : singleRequest .batchPutItem (store.table name) item = putRequest key item := by
        rw [singleRequest, read]
        rfl
      have written : Store.table (Dict.insert store name ((store.table name).store key item)) name =
          (store.table name).store key item := by
        rw [table_insert, if_pos rfl]
      have rest := ih formedRest (by rw [written]; exact below)
      rw [written] at rest
      unfold singlesFor
      rw [List.map_cons, request]
      exact .behind single (fun _ => rfl) rest

/-- Deleting the keys of a table. -/
theorem serves_removeAll (formed : ∀ key ∈ keys, WellFormed key)
    (done : (removeAll (store.table name) keys).1 = .ok values) :
    store.Serves (singlesFor .batchDeleteItem (store.table name) name keys) values
      (Dict.insert store name (removeAll (store.table name) keys).2) := by
  induction keys generalizing store values with
  | nil =>
    cases done
    exact serves_nil (agree_insert_table store name)
  | cons key rest ih =>
    obtain ⟨formedKey, formedRest⟩ := List.forall_mem_cons.mp formed
    obtain ⟨after, single, agree⟩ : ∃ after, store.execute name (keyRequest .deleteItem key) =
        (plain ((store.table name).find? key), after) ∧
      Agree after (Dict.insert store name ((store.table name).remove key)) :=
      execute_deleteKey formedKey
    rw [removeAll] at done ⊢
    cases found : plain ((store.table name).find? key) with
    | error failure =>
      simp only [found] at done
      cases done
    | ok value =>
      simp only [found] at done ⊢
      obtain ⟨others, below, rfl⟩ := map_ok done
      have written : Store.table (Dict.insert store name ((store.table name).remove key)) name =
          (store.table name).remove key := by
        rw [table_insert, if_pos rfl]
      have rest := ih formedRest (by rw [written]; exact below)
      rw [written] at rest
      rw [found] at single
      exact .behind single agree rest

end

/-! ### The tables of a batch -/

/-- Whether a batch with these results comes to what its single requests come to one after another,
and has one value for every entry. -/
structure ServesBatch (store : Store) (operation : Operation) (tables : BatchRequest)
    (results : Dict (List Json)) (last : Store) : Prop where
  matching : Matching tables results
  serves : store.Serves (singles operation store tables) (results.flatMap Prod.snd) last

section

variable {name : String} {tables : BatchRequest} {results : Dict (List Json)} {raw : Dict Json}

theorem Serves.length_eq (serves : store.Serves front values last) :
    values.length = front.length := by
  have length (store : Store) (requests : List Sent) :
      (store.answers requests).length = requests.length := by
    induction requests generalizing store with
    | nil => rfl
    | cons sent rest ih => simp [answers, ih]
  rw [← length store front, serves.answered, List.length_map]

/-- The requests for the entries of a batch depend on the names of the key attributes alone. -/
theorem singles_congr {operation : Operation} {first second : Store}
    (same : ∀ name, (first.table name).keyNames = (second.table name).keyNames)
    (tables : BatchRequest) : singles operation first tables = singles operation second tables := by
  unfold singles
  congr 1
  funext entry
  exact singlesFor_congr (same entry.1) entry.2

theorem servesBatch_nil (store : Store) (operation : Operation) :
    store.ServesBatch operation [] [] store :=
  ⟨.nil, serves_nil fun _ => rfl⟩

/-- The first table of a batch, and the tables behind it. -/
theorem ServesBatch.cons {operation : Operation} {entries : List Item}
    (here : store.Serves (singlesFor operation (store.table name) name entries) values middle)
    (same : singles operation middle tables = singles operation store tables)
    (below : middle.ServesBatch operation tables results last) :
    store.ServesBatch operation ((name, entries) :: tables) ((name, values) :: results) last where
  matching := by
    refine .cons ⟨rfl, ?_⟩ below.matching
    rw [here.length_eq]
    exact List.length_map _
  serves := by
    have serves := below.serves
    rw [same] at serves
    exact here.append serves

/-- Reading the keys of a batch. -/
theorem serves_batchGet (formed : ∀ entry ∈ tables, ∀ key ∈ entry.2, WellFormed key) {answer : Json}
    (done : store.batchGet tables = .ok answer) :
    ∃ results, answer = batchAnswer "unprocessedKeys" (resultsJson results) ∧
      store.ServesBatch .batchGetItem tables results store := by
  obtain ⟨raw, read, ⟨⟩⟩ := bind_ok done
  clear done
  suffices ∃ results, raw = resultsJson results ∧
      store.ServesBatch .batchGetItem tables results store by
    obtain ⟨results, rfl, serves⟩ := this
    exact ⟨results, rfl, serves⟩
  induction tables generalizing raw with
  | nil =>
    cases read
    exact ⟨[], rfl, servesBatch_nil store _⟩
  | cons entry rest ih =>
    obtain ⟨name, keys⟩ := entry
    obtain ⟨formedKeys, formedRest⟩ := List.forall_mem_cons.mp formed
    rw [List.mapM_cons] at read
    obtain ⟨first, here, read⟩ := bind_ok read
    obtain ⟨values, found, here⟩ := bind_ok here
    obtain ⟨others, below, read⟩ := bind_ok read
    cases here
    cases read
    obtain ⟨results, rfl, serves⟩ := ih formedRest others below
    exact ⟨(name, values) :: results, rfl, .cons (serves_finds formedKeys found) rfl serves⟩

/-- Putting the items of a batch. -/
theorem serves_batchPut (formed : ∀ entry ∈ tables, ∀ item ∈ entry.2, WellFormed item)
    (done : (store.batchPut tables).1 = .ok raw) :
    ∃ results, raw = resultsJson results ∧
      store.ServesBatch .batchPutItem tables results (store.batchPut tables).2 := by
  induction tables generalizing store raw with
  | nil =>
    cases done
    exact ⟨[], rfl, servesBatch_nil store _⟩
  | cons entry rest ih =>
    obtain ⟨name, items⟩ := entry
    obtain ⟨formedItems, formedRest⟩ := List.forall_mem_cons.mp formed
    rw [batchPut_cons] at done ⊢
    cases put : (putAll (store.table name) items).1 with
    | error failure =>
      rw [put] at done
      cases done
    | ok values =>
      rw [put] at done
      obtain ⟨others, below, rfl⟩ := map_ok done
      obtain ⟨results, rfl, serves⟩ := ih formedRest below
      refine ⟨(name, values) :: results, rfl, .cons (serves_putAll formedItems put) ?_ serves⟩
      refine singles_congr (fun other => ?_) rest
      rw [table_insert]
      split
      · rename_i same
        rw [keyNames_putAll, same]
      · rfl

/-- Deleting the keys of a batch. -/
theorem serves_batchDelete (formed : ∀ entry ∈ tables, ∀ key ∈ entry.2, WellFormed key)
    (done : (store.batchDelete tables).1 = .ok raw) :
    ∃ results, raw = resultsJson results ∧
      store.ServesBatch .batchDeleteItem tables results (store.batchDelete tables).2 := by
  induction tables generalizing store raw with
  | nil =>
    cases done
    exact ⟨[], rfl, servesBatch_nil store _⟩
  | cons entry rest ih =>
    obtain ⟨name, keys⟩ := entry
    obtain ⟨formedKeys, formedRest⟩ := List.forall_mem_cons.mp formed
    obtain ⟨middle, agree, same⟩ := batchDelete_cons store name keys rest
    rw [same] at done ⊢
    cases removed : (removeAll (store.table name) keys).1 with
    | error failure =>
      rw [removed] at done
      cases done
    | ok values =>
      rw [removed] at done
      obtain ⟨others, below, rfl⟩ := map_ok done
      obtain ⟨results, rfl, serves⟩ := ih formedRest below
      have here := serves_removeAll formedKeys removed
      exact ⟨(name, values) :: results, rfl,
        .cons ⟨here.answered, agree.trans here.agree⟩ rfl serves⟩

end

end Store

/-! ### Batches -/

/-- Puts that succeed find the key attributes of every item. -/
theorem keys_of_putAll {table : Contents} {items : List Item} {values : List Json}
    (done : (Store.putAll table items).1 = .ok values) :
    ∀ item ∈ items, ∃ key, table.keyOf item = .ok key := by
  have all : items.all table.takes = true := by
    by_contra misfit
    rw [Bool.not_eq_true] at misfit
    obtain ⟨⟨failure, failed⟩, _⟩ := (Store.putAll_takes table items).2 misfit
    rw [done] at failed
    cases failed
  intro item member
  have takes := List.all_eq_true.mp all item member
  rw [Contents.takes, Bool.and_eq_true] at takes
  cases read : table.keyOf item with
  | error failure =>
    rw [read] at takes
    cases takes.1
  | ok key => exact ⟨key, rfl⟩

theorem keys_of_batchPut {store : Store} {tables : BatchRequest} {raw : Dict Json}
    (done : (store.batchPut tables).1 = .ok raw) :
    ∀ entry ∈ tables, ∀ item ∈ entry.2, ∃ key, (store.table entry.1).keyOf item = .ok key := by
  induction tables generalizing store raw with
  | nil => exact fun _ member => absurd member List.not_mem_nil
  | cons entry rest ih =>
    obtain ⟨name, items⟩ := entry
    rw [batchPut_cons] at done
    cases put : (Store.putAll (store.table name) items).1 with
    | error failure =>
      rw [put] at done
      cases done
    | ok values =>
      rw [put] at done
      obtain ⟨others, below, _⟩ := map_ok done
      refine List.forall_mem_cons.mpr ⟨keys_of_putAll put, fun entry member item inItems => ?_⟩
      obtain ⟨key, read⟩ := ih below entry member item inItems
      rw [Store.table_insert] at read
      split at read
      · rename_i same
        subst same
        refine ⟨key, ?_⟩
        unfold Contents.keyOf at read ⊢
        rwa [keyNames_putAll] at read
      · exact ⟨key, read⟩

/-- **A batch that succeeds comes to what its single requests come to one after another.** The
tables come in the order of their names; the results have one value for every entry, and all later
requests are answered alike. A batch of puts finds the key attributes of every item. -/
theorem batch_serves (store : Store) (name : String) {operation : Operation}
    {request answer : Json} (valid : request.Valid)
    (batch : operation = .batchGetItem ∨ operation = .batchPutItem ∨ operation = .batchDeleteItem)
    (named : operation? request = some operation)
    (done : (store.execute name request).1 = .ok answer) :
    ∃ tables results, batchOf? operation request = some tables ∧ tables.Ascending ∧
      answer = Store.batchAnswer (leftOut operation) (resultsJson results) ∧
      store.ServesBatch operation tables results (store.execute name request).2 ∧
      (operation = .batchPutItem → ∀ entry ∈ tables, ∀ item ∈ entry.2,
        ∃ key, (store.table entry.1).keyOf item = .ok key) ∧
      ∀ later, (store.execute name request).2.answers later =
        (store.after (singles operation store tables)).answers later := by
  rw [Store.execute_eq_perform store name named] at done ⊢
  suffices ∃ tables results, batchOf? operation request = some tables ∧
      answer = Store.batchAnswer (leftOut operation) (resultsJson results) ∧
      store.ServesBatch operation tables results (store.perform name operation request).2 ∧
      (operation = .batchPutItem → ∀ entry ∈ tables, ∀ item ∈ entry.2,
        ∃ key, (store.table entry.1).keyOf item = .ok key) by
    obtain ⟨tables, results, given, rfl, serves, keys⟩ := this
    exact ⟨tables, results, given, batchOf?_ascending given, rfl, serves, keys,
      Store.answers_agree serves.serves.agree⟩
  rcases batch with rfl | rfl | rfl
  case inl =>
    obtain ⟨tables, read, answered⟩ := andThen_ok done
    have given : batchOf? .batchGetItem request = some tables := fieldsOf_ok read
    have last : (store.perform name .batchGetItem request).2 = store := Store.andThen_snd store _ _
    obtain ⟨results, rfl, serves⟩ := Store.serves_batchGet (batchOf?_formed valid given) answered
    rw [last]
    exact ⟨tables, results, given, rfl, serves, fun other => by cases other⟩
  case inr.inl =>
    obtain ⟨tables, read, answered⟩ := andThen_ok done
    have given : batchOf? .batchPutItem request = some tables := fieldsOf_ok read
    have last : (store.perform name .batchPutItem request).2 = (store.batchPut tables).2 := by
      simp only [Store.perform, read, Store.andThen]
    obtain ⟨raw, put, rfl⟩ := map_ok answered
    obtain ⟨results, rfl, serves⟩ := Store.serves_batchPut (batchOf?_formed valid given) put
    rw [last]
    exact ⟨tables, results, given, rfl, serves, fun _ => keys_of_batchPut put⟩
  case inr.inr =>
    obtain ⟨tables, read, answered⟩ := andThen_ok done
    have given : batchOf? .batchDeleteItem request = some tables := fieldsOf_ok read
    have last : (store.perform name .batchDeleteItem request).2 = (store.batchDelete tables).2 := by
      simp only [Store.perform, read, Store.andThen]
    obtain ⟨raw, removed, rfl⟩ := map_ok answered
    obtain ⟨results, rfl, serves⟩ := Store.serves_batchDelete (batchOf?_formed valid given) removed
    rw [last]
    exact ⟨tables, results, given, rfl, serves, fun other => by cases other⟩

/-! ### A key that comes twice in a batch -/

namespace Twice

/-- A text attribute. -/
def text (content : String) : Json := Attribute.tagged "S" (.string content)

/-- The key of both items. -/
def key : Item := [("id", text "1")]

/-- An item with the key and a title. -/
def item (title : String) : Item := [("title", text title), ("id", text "1")]

/-- The item as plain JSON. -/
def plain (title : String) : Json := .object [("title", .string title), ("id", .string "1")]

/-- A store with a table whose key name is declared. -/
def store : Store := [("posts", { keyNames := ["id"] })]

/-- A batch that puts both items, and nothing into a table that does not exist. -/
def batch : Json :=
  .object
    [("operation", .string "BatchPutItem"),
      ("tables", .object
        [("posts", .array [.object (item "old"), .object (item "new")]), ("drafts", .array [])])]

/-- The two puts. -/
def puts : List Sent :=
  [("posts", putRequest key (item "old")), ("posts", putRequest key (item "new"))]

/-- **The batch is answered like the two puts**, of which the second replaces the item of the
first. -/
theorem batch_as_puts :
    batch.Valid ∧ operation? batch = some .batchPutItem ∧
      (store.execute "posts" batch).1 = .ok (Store.batchAnswer "unprocessedItems"
        [("drafts", .array []), ("posts", .array [plain "old", plain "new"])]) ∧
      store.answers puts = [.ok (plain "old"), .ok (plain "new")] ∧
      ((store.execute "posts" batch).2.table "posts").items =
        ((store.after puts).table "posts").items := by
  have valid : batch.Valid := by
    simp [batch, item, text, Attribute.tagged, Json.Valid, Json.FieldsValid, Json.ItemsValid,
      Dict.keys]
  have named : operation? batch = some .batchPutItem := by decide +kernel
  have done : (store.execute "posts" batch).1 = .ok (Store.batchAnswer "unprocessedItems"
      [("drafts", .array []), ("posts", .array [plain "old", plain "new"])]) := rfl
  have read : batchOf? .batchPutItem batch =
      some [("drafts", []), ("posts", [item "old", item "new"])] := rfl
  obtain ⟨tables, results, given, _, same, serves, _⟩ :=
    batch_serves store "posts" valid (.inr (.inl rfl)) named done
  cases read.symm.trans given
  have values : results = [("drafts", []), ("posts", [plain "old", plain "new"])] := by
    rcases results with _ | ⟨⟨first, values⟩, _ | ⟨⟨second, others⟩, _ | _⟩⟩ <;>
      simp_all [Store.batchAnswer, leftOut, resultsJson, Dict.mapValues]
  subst values
  have agree := serves.serves.agree "posts"
  exact ⟨valid, named, done, serves.serves.answered, congrArg Contents.items agree⟩

end Twice

end FieldResolver.Table
