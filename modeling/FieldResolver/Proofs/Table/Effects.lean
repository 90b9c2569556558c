/-
**What requests do to items.**

An effect says that an item was stored under a key, with the value that was answered, or that a key
was deleted. `effects` reads the effects of a successful request off its text and its answer, and
`Runs` is what effects do to the tables of a store.

* `putItem_ok`, `updateItem_ok`: a write that succeeds stores an item that carries the key;
* `putAll_runs`, `removeAll_runs`: a batch does one thing after another;
* `execute_runs`: a request that succeeds has its effects, and one that fails has some.
-/

import FieldResolver.Proofs.Json.Valid
import FieldResolver.Proofs.Table.Entries

namespace FieldResolver.Table

open Fallible

/-- What a request does to an item. -/
inductive Effect where
  /-- An item is stored under a key; the value is the plain form of the item. -/
  | wrote (operation : Operation) (table : String) (key : Item) (value : Json)
  | deleted (table : String) (key : Item)

namespace Effect

/-- The table of the item. -/
def table : Effect → String
  | .wrote _ table _ _ | .deleted table _ => table

/-- The key of the item. -/
def key : Effect → Item
  | .wrote _ _ key _ | .deleted _ key => key

/-- The plain form of the item afterwards. -/
def value? : Effect → Option Json
  | .wrote _ _ _ value => some value
  | .deleted .. => none

end Effect

/-- The operation that a request names. -/
def operation? (request : Json) : Option Operation :=
  ((request.field? "operation").bind Json.string?).bind Operation.ofName?

/-- A request is answered by the operation that it names. -/
theorem Store.execute_eq_perform (store : Store) (name : String) {operation : Operation}
    {request : Json} (named : operation? request = some operation) :
    store.execute name request = store.perform name operation request := by
  obtain ⟨text, given, known⟩ := Option.bind_eq_some_iff.mp named
  rw [execute, given]
  simp only [known]

/-- The values that the results of a batch give for a table. -/
def valuesFor (results : Dict Json) (name : String) : List Json :=
  ((results.get? name).bind Json.array?).getD []

/-- The values that the answer to a batch gives for a table. -/
def answersFor (answer : Json) (name : String) : List Json :=
  (((answer.field? "data").bind Json.object?).map fun results => valuesFor results name).getD []

/-- What storing items one after another does. -/
def putEffects (table : Contents) (name : String) (items : List Item) (values : List Json) :
    List Effect :=
  (items.zip values).filterMap fun (item, value) =>
    (table.keyOf item).toOption.map fun key => .wrote .batchPutItem name key value

/-- What a request for an operation does if it is answered. -/
def effectsOf (store : Store) (name : String) (operation : Operation) (request answer : Json) :
    List Effect :=
  match operation with
  | .putItem | .updateItem =>
    (KeyedRequest.ofJson? request).toList.map fun fields =>
      .wrote operation name fields.key answer
  | .deleteItem =>
    (KeyedRequest.ofJson? request).toList.map fun fields => .deleted name fields.key
  | .batchPutItem =>
    (BatchRequest.ofJson? items? request).toList.flatMap fun tables =>
      tables.flatMap fun (name, items) =>
        putEffects (store.table name) name items (answersFor answer name)
  | .batchDeleteItem =>
    (BatchRequest.ofJson? items? request).toList.flatMap fun tables =>
      tables.flatMap fun (name, keys) => keys.map (.deleted name)
  | .getItem | .query | .scan | .batchGetItem => []

/-- What a request does if it is answered. -/
def effects (store : Store) (name : String) (request answer : Json) : List Effect :=
  (operation? request).toList.flatMap fun operation =>
    effectsOf store name operation request answer

/-- Whether an item has the attributes of a key. An update has to leave them the same as JSON; the
other operations store them as they are. -/
def Carries (operation : Operation) (item key : Item) : Prop :=
  ∀ name value, key.get? name = some value → ∃ found, item.get? name = some found ∧
    (found = value ∨ operation = .updateItem ∧ found.same value = true)

/-- What effects do to a table, whose key attributes may be declared or learned meanwhile. -/
inductive Contents.Runs (name : String) : Contents → List Effect → Contents → Prop where
  | refl (table : Contents) : Runs name table [] table
  | declare (table : Contents) (keyNames : List String) :
      Runs name table [] { table with keyNames }
  | store (table : Contents) (operation : Operation) {key item : Item} {value : Json}
      (plain : plainItem item = .ok value) (carries : Carries operation item key) :
      Runs name table [.wrote operation name key value] (table.store key item)
  | remove (table : Contents) (key : Item) :
      Runs name table [.deleted name key] (table.remove key)
  | append {table middle last : Contents} {before after : List Effect}
      (first : Runs name table before middle) (second : Runs name middle after last) :
      Runs name table (before ++ after) last

/-- What effects do to the tables of a store. -/
inductive Runs : Store → List Effect → Store → Prop where
  | refl (store : Store) : Runs store [] store
  | table {store after : Store} {effects : List Effect} (name : String)
      (run : Contents.Runs name (store.table name) effects (after.table name))
      (others : ∀ other, other ≠ name → after.table other = store.table other) :
      Runs store effects after
  | append {store middle last : Store} {before after : List Effect}
      (first : Runs store before middle) (second : Runs middle after last) :
      Runs store (before ++ after) last

/-- A table that is written back. -/
theorem Runs.written {store after : Store} {name : String} {effects : List Effect}
    {table : Contents} (run : Contents.Runs name (store.table name) effects table)
    (agree : after.Agree (Dict.insert store name table)) : Runs store effects after := by
  refine .table name ?_ fun other different => ?_
  · rwa [agree, Store.table_insert, if_pos rfl]
  · rw [agree, Store.table_insert, if_neg different.symm]

theorem Runs.insert {store : Store} {name : String} {effects : List Effect} {table : Contents}
    (run : Contents.Runs name (store.table name) effects table) :
    Runs store effects (Dict.insert store name table) :=
  .written run fun _ => rfl

/-- Declaring the key attributes of a table has no effect on items. -/
theorem createTable_runs (store : Store) (name : String) (keyNames : List String) :
    Runs store [] (store.createTable name keyNames) :=
  .insert (.declare _ _)

/-! ### Writing an item -/

section

variable {table after : Contents} {request : KeyedRequest} {result : Json}

/-- A put that succeeds stores an item that carries the key. -/
theorem putItem_ok (distinct : (Dict.keys request.key).Nodup)
    (done : Store.putItem table request = .ok (result, after)) :
    ∃ item, plainItem item = .ok result ∧ Carries .putItem item request.key ∧
      after = table.store request.key item := by
  obtain ⟨_, _, done⟩ := bind_ok done
  obtain ⟨value, plain, done⟩ := bind_ok done
  cases done
  refine ⟨_, plain, fun name value given => ⟨value, ?_, .inl rfl⟩, rfl⟩
  rw [Dict.get?_insertAll _ distinct, given]
  rfl

/-- An update that succeeds stores an item that carries the key. -/
theorem updateItem_ok {update : Expression.ResolvedUpdate}
    (done : Store.updateItem table request update = .ok (result, after)) :
    ∃ item, plainItem item = .ok result ∧ Carries .updateItem item request.key ∧
      after = table.store request.key item := by
  obtain ⟨_, _, done⟩ := bind_ok done
  obtain ⟨item, _, done⟩ := bind_ok done
  split at done
  · cases done
  · rename_i kept
    obtain ⟨value, plain, done⟩ := bind_ok done
    cases done
    refine ⟨item, plain, fun name value given => ?_, rfl⟩
    have has := List.find?_eq_none.mp kept (name, value) (Dict.mem_of_get? given)
    rw [Bool.not_eq_true', Bool.not_eq_false, Store.hasAttribute] at has
    split at has
    · rename_i found read
      exact ⟨found, read, .inr ⟨rfl, has⟩⟩
    · cases has

end

/-! ### Batches -/

section

variable {name : String}

/-- What the steps of reading a key off an item keep holds of the key. -/
theorem keyOf_keeps {table : Contents} {item key : Item} (read : table.keyOf item = .ok key)
    (kept : Item → Prop) (start : kept [])
    (keeps : ∀ {before : Item} {name value}, item.get? name = some value → kept before →
      kept (before.insert name value)) : kept key := by
  rw [Contents.keyOf] at read
  split at read
  · cases read
  · refine foldlM_keeps (fun {before name after} here holds => ?_) read start
    revert here
    cases found : item.get? name with
    | none => exact fun here => nomatch here
    | some value =>
      rintro ⟨⟩
      exact keeps found holds

/-- The key that a table reads off an item is part of the item. -/
theorem keyOf_carries {table : Contents} {item key : Item} (read : table.keyOf item = .ok key)
    (operation : Operation) : Carries operation item key := by
  have part : ∀ name value, key.get? name = some value → item.get? name = some value := by
    refine keyOf_keeps read
      (fun key => ∀ name value, key.get? name = some value → item.get? name = some value)
      (fun _ _ none => nomatch none) ?_
    intro before first value found holds name other given
    rw [Dict.get?_insert] at given
    split at given
    · rename_i same
      cases given
      rw [← same, found]
    · exact holds name other given
  exact fun name value given => ⟨value, part name value given, .inl rfl⟩

/-- Whether a table can store an item under a key of its own. -/
def Contents.takes (table : Contents) (item : Item) : Bool :=
  (table.keyOf item).isOk && (plainItem item).isOk

/-- What one item of a batch comes to. -/
theorem putAll_cons (table : Contents) (item : Item) :
    (table.takes item = false ∧
      ∃ failure, ∀ rest, Store.putAll table (item :: rest) = (.error failure, table)) ∨
    ∃ key result, table.keyOf item = .ok key ∧ plainItem item = .ok result ∧
      ∀ rest, Store.putAll table (item :: rest) =
        (((Store.putAll (table.store key item) rest).1).map (result :: ·),
          (Store.putAll (table.store key item) rest).2) := by
  unfold Contents.takes
  cases read : table.keyOf item with
  | error failure =>
    refine .inl ⟨rfl, failure, fun rest => ?_⟩
    simp only [Store.putAll, read]
    rfl
  | ok key =>
    cases plain : plainItem item with
    | error failure =>
      refine .inl ⟨rfl, failure, fun rest => ?_⟩
      simp only [Store.putAll, read, plain]
      rfl
    | ok result =>
      refine .inr ⟨key, result, rfl, rfl, fun rest => ?_⟩
      simp only [Store.putAll, read, plain]
      rfl

/-- Items are stored one after another, all of them if the batch succeeds. -/
theorem putAll_runs (name : String) (table : Contents) (items : List Item) :
    ∃ effects, Contents.Runs name table effects (Store.putAll table items).2 ∧
      ∀ results, (Store.putAll table items).1 = .ok results →
        effects = putEffects table name items results := by
  induction items generalizing table with
  | nil => exact ⟨[], .refl table, fun results done => by cases done; rfl⟩
  | cons item rest ih =>
    rcases putAll_cons table item with ⟨_, failure, failed⟩ | ⟨key, result, read, plain, done⟩
    · rw [failed]
      exact ⟨[], .refl table, fun _ done => nomatch done⟩
    · obtain ⟨effects, run, all⟩ := ih (table.store key item)
      rw [done]
      refine ⟨_, .append (.store table .batchPutItem plain (keyOf_carries read _)) run, ?_⟩
      intro results succeeded
      obtain ⟨others, below, rfl⟩ := map_ok succeeded
      have here : putEffects table name (item :: rest) (result :: others) =
          .wrote .batchPutItem name key result :: putEffects table name rest others := by
        simp [putEffects, read, Except.toOption]
      rw [here, all others below]
      rfl

/-- Storing items leaves the names of the key attributes alone. -/
theorem keyNames_putAll (table : Contents) (items : List Item) :
    (Store.putAll table items).2.keyNames = table.keyNames := by
  induction items generalizing table with
  | nil => rfl
  | cons item rest ih =>
    rcases putAll_cons table item with ⟨_, failure, failed⟩ | ⟨key, result, _, _, done⟩
    · rw [failed]
    · rw [done]
      exact ih (table.store key item)

/-- What one key of a batch comes to. -/
theorem removeAll_cons (table : Contents) (key : Item) (rest : List Item) :
    (∃ failure, Store.removeAll table (key :: rest) = (.error failure, table.remove key)) ∨
      ∃ result, Store.removeAll table (key :: rest) =
        (((Store.removeAll (table.remove key) rest).1).map (result :: ·),
          (Store.removeAll (table.remove key) rest).2) := by
  rw [Store.removeAll]
  split
  · rename_i failure _
    exact .inl ⟨failure, rfl⟩
  · rename_i result _
    exact .inr ⟨result, rfl⟩

/-- Keys are deleted one after another, all of them if the batch succeeds. -/
theorem removeAll_runs (name : String) (table : Contents) (keys : List Item) :
    ∃ effects, Contents.Runs name table effects (Store.removeAll table keys).2 ∧
      ∀ results, (Store.removeAll table keys).1 = .ok results →
        effects = keys.map (.deleted name) := by
  induction keys generalizing table with
  | nil => exact ⟨[], .refl table, fun _ _ => rfl⟩
  | cons key rest ih =>
    rcases removeAll_cons table key rest with ⟨failure, failed⟩ | ⟨result, done⟩
    · rw [failed]
      exact ⟨_, .remove table key, fun _ done => nomatch done⟩
    · obtain ⟨effects, run, all⟩ := ih (table.remove key)
      rw [done]
      refine ⟨_, .append (.remove table key) run, ?_⟩
      intro results succeeded
      obtain ⟨others, below, rfl⟩ := map_ok succeeded
      rw [all others below]
      rfl

/-- The values of the first table of a batch. -/
theorem valuesFor_cons_self (name : String) (values : List Json) (others : Dict Json) :
    valuesFor ((name, .array values) :: others) name = values := by
  rw [valuesFor, Dict.get?_cons, if_pos rfl]
  rfl

/-- The values of the tables behind it. -/
theorem valuesFor_cons_of_ne {name other : String} (first : Json) (others : Dict Json)
    (different : name ≠ other) :
    valuesFor ((name, first) :: others) other = valuesFor others other := by
  rw [valuesFor, Dict.get?_cons, if_neg different]
  rfl

/-- The answer to a batch gives the values of its results. -/
theorem answersFor_batchAnswer (leftOut : String) (results : Dict Json) :
    answersFor (Store.batchAnswer leftOut results) = valuesFor results := rfl

/-- What the first table of a batch of puts comes to. -/
theorem batchPut_cons (store : Store) (name : String) (items : List Item) (rest : BatchRequest) :
    store.batchPut ((name, items) :: rest) =
      match (Store.putAll (store.table name) items).1 with
      | .error failure =>
        (.error failure, Dict.insert store name (Store.putAll (store.table name) items).2)
      | .ok values =>
        let middle : Store := Dict.insert store name (Store.putAll (store.table name) items).2
        (((middle.batchPut rest).1).map ((name, .array values) :: ·),
          (middle.batchPut rest).2) := by
  cases done : Store.putAll (store.table name) items with
  | mk results table => cases results <;> simp only [Store.batchPut, done]

/-- The items of a request are stored table by table, all of them if it succeeds. -/
theorem batchPut_runs (store : Store) {tables : BatchRequest} (ascending : tables.Ascending) :
    ∃ effects, Runs store effects (store.batchPut tables).2 ∧
      ∀ results, (store.batchPut tables).1 = .ok results →
        effects = tables.flatMap fun (name, items) =>
          putEffects (store.table name) name items (valuesFor results name) := by
  induction tables generalizing store with
  | nil => exact ⟨[], .refl store, fun _ _ => rfl⟩
  | cons entry rest ih =>
    obtain ⟨name, items⟩ := entry
    obtain ⟨first, below⟩ := Index.ascending_cons.mp ascending
    obtain ⟨effects, run, all⟩ := putAll_runs name (store.table name) items
    rw [batchPut_cons]
    cases done : (Store.putAll (store.table name) items).1 with
    | error failure => exact ⟨effects, .insert run, fun _ done => nomatch done⟩
    | ok values =>
      obtain ⟨others, runBelow, allBelow⟩ :=
        ih (Dict.insert store name (Store.putAll (store.table name) items).2) below
      refine ⟨effects ++ others, .append (.insert run) runBelow, ?_⟩
      intro results succeeded
      obtain ⟨resultsBelow, doneBelow, rfl⟩ := map_ok succeeded
      rw [List.flatMap_cons, all values done, allBelow resultsBelow doneBelow]
      show _ = putEffects (store.table name) name items (valuesFor _ name) ++ _
      rw [valuesFor_cons_self]
      congr 1
      refine List.flatMap_congr fun entry member => ?_
      have different := ne_of_lt (first entry member)
      show putEffects (Store.table (Dict.insert store name _) entry.1) entry.1 entry.2 _ =
        putEffects (store.table entry.1) entry.1 entry.2 _
      rw [Store.table_insert, if_neg different, valuesFor_cons_of_ne _ _ different]

/-- The keys of a request are deleted table by table, all of them if it succeeds. -/
theorem batchDelete_runs (store : Store) (tables : BatchRequest) :
    ∃ effects, Runs store effects (store.batchDelete tables).2 ∧
      ∀ results, (store.batchDelete tables).1 = .ok results →
        effects = tables.flatMap fun (name, keys) => keys.map (.deleted name) := by
  induction tables generalizing store with
  | nil => exact ⟨[], .refl store, fun _ _ => rfl⟩
  | cons entry rest ih =>
    obtain ⟨name, keys⟩ := entry
    obtain ⟨middle, agree, same⟩ := Store.batchDelete_cons store name keys rest
    obtain ⟨effects, run, all⟩ := removeAll_runs name (store.table name) keys
    rw [same]
    cases done : (Store.removeAll (store.table name) keys).1 with
    | error failure => exact ⟨effects, .written run agree, fun _ done => nomatch done⟩
    | ok values =>
      obtain ⟨others, runBelow, allBelow⟩ := ih middle
      refine ⟨effects ++ others, .append (.written run agree) runBelow, ?_⟩
      intro results succeeded
      obtain ⟨resultsBelow, doneBelow, _⟩ := map_ok succeeded
      rw [List.flatMap_cons, all values done, allBelow resultsBelow doneBelow]

/-! ### Requests -/

/-- A write that succeeds stores an item; one that fails only lets the table learn its key. -/
theorem write_runs (store : Store) (name : String) (key : Item) (operation : Operation)
    (change : Contents → Except Failure (Json × Contents))
    (stores : ∀ {table result after}, change table = .ok (result, after) →
      ∃ item, plainItem item = .ok result ∧ Carries operation item key ∧
        after = table.store key item) :
    ∃ effects, Runs store effects (store.write name key change).2 ∧
      ∀ answer, (store.write name key change).1 = .ok answer →
        effects = [.wrote operation name key answer] := by
  have learns : Contents.Runs name (store.table name) [] ((store.table name).learnKey key) := by
    rw [Contents.learnKey]
    split
    · exact .declare _ _
    · exact .refl _
  rw [Store.write]
  cases changed : change ((store.table name).learnKey key) with
  | error failure =>
    simp only
    exact ⟨[], .insert learns, fun _ done => nomatch done⟩
  | ok done =>
    obtain ⟨result, after⟩ := done
    obtain ⟨item, plain, carries, rfl⟩ := stores changed
    simp only
    refine ⟨_, .insert (.append learns (.store _ operation plain carries)), ?_⟩
    rintro answer ⟨⟩
    rfl

/-- A deletion that succeeds deletes a key. -/
theorem deleteItem_runs (store : Store) (name : String) (request : KeyedRequest) :
    ∃ effects, Runs store effects (store.deleteItem name request).2 ∧
      ∀ answer, (store.deleteItem name request).1 = .ok answer →
        effects = [.deleted name request.key] := by
  cases checked : checkCondition request.condition ((store.table name).find? request.key) with
  | error failure =>
    rw [Store.deleteItem_of_error checked]
    exact ⟨[], .refl store, fun _ done => nomatch done⟩
  | ok _ =>
    obtain ⟨after, same, agree⟩ := Store.deleteItem_of_ok checked
    rw [same]
    exact ⟨[.deleted name request.key], .written (.remove _ _) agree, fun _ _ => rfl⟩

/-- A part of a request that is read first. -/
theorem andThen_runs {α : Type} {store : Store} {read : Except Failure α}
    {next : α → Except Failure Json × Store} {expected : Json → List Effect}
    (goes : ∀ fields, read = .ok fields → ∃ effects, Runs store effects (next fields).2 ∧
      ∀ answer, (next fields).1 = .ok answer → effects = expected answer) :
    ∃ effects, Runs store effects (store.andThen read next).2 ∧
      ∀ answer, (store.andThen read next).1 = .ok answer → effects = expected answer := by
  cases done : read with
  | error failure => exact ⟨[], .refl store, fun _ done => nomatch done⟩
  | ok fields => exact goes fields done

/-- The fields of a request that can be read. -/
theorem fieldsOf_ok {α : Type} {operation : Operation} {request : Json} {read : Json → Option α}
    {fields : α} (done : Store.fieldsOf operation request read = .ok fields) :
    read request = some fields := by
  rw [Store.fieldsOf] at done
  split at done
  · rename_i found
    cases done
    exact found
  · cases done

/-- The key of a request has distinct attributes. -/
theorem KeyedRequest.key_distinct {request : Json} {fields : KeyedRequest}
    (read : KeyedRequest.ofJson? request = some fields) : (Dict.keys fields.key).Nodup := by
  obtain ⟨record, _, read⟩ := Option.bind_eq_some_iff.mp read
  obtain ⟨key, given, read⟩ := Option.bind_eq_some_iff.mp read
  obtain ⟨_, _, read⟩ := Option.bind_eq_some_iff.mp read
  obtain ⟨_, _, read⟩ := Option.bind_eq_some_iff.mp read
  obtain ⟨_, _, read⟩ := Option.bind_eq_some_iff.mp read
  cases read
  obtain ⟨value, _, given⟩ := Json.Record.of_required given
  exact Json.fields?_distinct given

/-- A request for several items names its tables in order. -/
theorem BatchRequest.ascending {read : Json → Option (List Item)} {request : Json}
    {tables : BatchRequest} (given : BatchRequest.ofJson? read request = some tables) :
    tables.Ascending := by
  obtain ⟨record, _, given⟩ := Option.bind_eq_some_iff.mp given
  obtain ⟨entries, _, rfl⟩ := Option.map_eq_some_iff.mp given
  exact Index.ascending_ofEntries entries

section

variable (store : Store) (name : String) {request : Json} {fields : KeyedRequest}

/-- A put that can be read writes to its table. -/
theorem Store.execute_putItem (named : operation? request = some .putItem)
    (read : KeyedRequest.ofJson? request = some fields) :
    store.execute name request =
      store.write name fields.key fun table => putItem table fields := by
  rw [execute_eq_perform store name named, perform, fieldsOf, read]
  rfl

/-- An update that can be read writes to its table. -/
theorem Store.execute_updateItem (named : operation? request = some .updateItem)
    (read : KeyedRequest.ofJson? request = some fields) {update : Expression.ResolvedUpdate}
    (resolved : updateOf fields = .ok update) :
    store.execute name request =
      store.write name fields.key fun table => updateItem table fields update := by
  rw [execute_eq_perform store name named, perform, fieldsOf, read]
  simp only [andThen, resolved]

/-- A deletion that can be read removes an item. -/
theorem Store.execute_deleteItem (named : operation? request = some .deleteItem)
    (read : KeyedRequest.ofJson? request = some fields) :
    store.execute name request = store.deleteItem name fields := by
  rw [execute_eq_perform store name named, perform, fieldsOf, read]
  rfl

end

/-- Reading leaves the store alone. -/
theorem andThen_reads {α : Type} (store : Store) {read : Except Failure α}
    {answer : α → Except Failure Json} :
    ∃ effects, Runs store effects (store.andThen read fun fields => (answer fields, store)).2 ∧
      ∀ value, (store.andThen read fun fields => (answer fields, store)).1 = .ok value →
        effects = [] :=
  andThen_runs fun _ _ => ⟨[], .refl store, fun _ _ => rfl⟩

theorem perform_runs (store : Store) (name : String) (operation : Operation) (request : Json) :
    ∃ effects, Runs store effects (store.perform name operation request).2 ∧
      ∀ answer, (store.perform name operation request).1 = .ok answer →
        effects = effectsOf store name operation request answer := by
  cases operation with
  | getItem | query | scan | batchGetItem => exact andThen_reads store
  | putItem =>
    refine andThen_runs fun fields read => ?_
    have given := fieldsOf_ok read
    obtain ⟨effects, run, all⟩ := write_runs store name fields.key .putItem
      (fun table => Store.putItem table fields)
      (putItem_ok (KeyedRequest.key_distinct given))
    refine ⟨effects, run, fun answer done => ?_⟩
    rw [all answer done, effectsOf, given]
    rfl
  | updateItem =>
    refine andThen_runs fun fields read => andThen_runs fun update _ => ?_
    have given := fieldsOf_ok read
    obtain ⟨effects, run, all⟩ := write_runs store name fields.key .updateItem
      (fun table => Store.updateItem table fields update) updateItem_ok
    refine ⟨effects, run, fun answer done => ?_⟩
    rw [all answer done, effectsOf, given]
    rfl
  | deleteItem =>
    refine andThen_runs fun fields read => ?_
    obtain ⟨effects, run, all⟩ := deleteItem_runs store name fields
    refine ⟨effects, run, fun answer done => ?_⟩
    rw [all answer done, effectsOf, fieldsOf_ok read]
    rfl
  | batchPutItem =>
    refine andThen_runs fun tables read => ?_
    have given := fieldsOf_ok read
    obtain ⟨effects, run, all⟩ := batchPut_runs store (BatchRequest.ascending given)
    refine ⟨effects, run, fun answer done => ?_⟩
    obtain ⟨results, succeeded, rfl⟩ := map_ok done
    rw [all results succeeded, effectsOf, given, answersFor_batchAnswer]
    simp only [Option.toList_some, List.flatMap_singleton]
  | batchDeleteItem =>
    refine andThen_runs fun tables read => ?_
    obtain ⟨effects, run, all⟩ := batchDelete_runs store tables
    refine ⟨effects, run, fun answer done => ?_⟩
    obtain ⟨results, succeeded, _⟩ := map_ok done
    rw [all results succeeded, effectsOf, fieldsOf_ok read]
    simp only [Option.toList_some, List.flatMap_singleton]

/-- **A request that succeeds has its effects**, and one that fails has some. -/
theorem execute_runs (store : Store) (name : String) (request : Json) :
    ∃ done, Runs store done (store.execute name request).2 ∧
      ∀ answer, (store.execute name request).1 = .ok answer →
        done = effects store name request answer := by
  rw [Store.execute]
  unfold effects operation?
  cases (request.field? "operation").bind Json.string? with
  | none => exact ⟨[], .refl store, fun _ done => nomatch done⟩
  | some text =>
    simp only [Option.bind_some]
    cases Operation.ofName? text with
    | none => exact ⟨[], .refl store, fun _ done => nomatch done⟩
    | some operation =>
      simp only [Option.toList_some, List.flatMap_singleton]
      exact perform_runs store name operation request

end

end FieldResolver.Table
