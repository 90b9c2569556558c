/-
**What failing requests leave behind.**

A request that fails does not always leave the store as it was. A put or an update that can be read
lets its table learn the names of the key attributes before anything else is checked, and a batch of
puts stores the items in front of the first one that fails. Nothing else is left behind.

* `Store.left`: the store after a request that failed, with `execute_failed`;
* `Store.Disturbs`: whether that differs from the store before;
* `Store.answers_agree`: stores with the same tables answer all requests alike;
* `failed_request`: a failing request has no effect exactly if it does not disturb the store.
-/

import FieldResolver.Proofs.Table.Reached

namespace FieldResolver.Table

open Fallible

/-! ### The store afterwards -/

/-- The key that a put or an update writes, if the request can be read. -/
def writtenKey? (request : Json) : Option Item :=
  match operation? request with
  | some .putItem => (KeyedRequest.ofJson? request).map KeyedRequest.key
  | some .updateItem =>
    (KeyedRequest.ofJson? request).bind fun fields =>
      (Store.updateOf fields).toOption.map fun _ => fields.key
  | _ => none

/-- The tables and items of a batch of puts, if the request can be read. -/
def putTables? (request : Json) : Option BatchRequest :=
  match operation? request with
  | some .batchPutItem => BatchRequest.ofJson? items? request
  | _ => none

namespace Store

/-- What stands in a batch of puts in front of the first item that cannot be stored. -/
def front (store : Store) : BatchRequest → BatchRequest
  | [] => []
  | (name, items) :: rest =>
    if items.all (store.table name).takes then (name, items) :: front store rest
    else [(name, items.takeWhile (store.table name).takes)]

/-- The store after a request that failed. -/
def left (store : Store) (name : String) (request : Json) : Store :=
  match writtenKey? request, putTables? request with
  | some key, _ => Dict.insert store name ((store.table name).learnKey key)
  | none, some tables => (store.batchPut (store.front tables)).2
  | none, none => store

/-- Whether a request that fails changes a table: its table learns the names of key attributes that
were unknown, or the items in front of the one that fails are not yet stored as they are. -/
def Disturbs (store : Store) (name : String) (request : Json) : Prop :=
  (∃ key, writtenKey? request = some key ∧ (store.table name).keyNames = [] ∧ key ≠ []) ∨
    ∃ tables, putTables? request = some tables ∧
      ¬ Agree (store.batchPut (store.front tables)).2 store

/-! ### Batches that fail -/

/-- Items that can all be stored are, and otherwise those in front of the first one that cannot. -/
theorem putAll_takes (table : Contents) (items : List Item) :
    (items.all table.takes = true → ∃ values, (putAll table items).1 = .ok values) ∧
      (items.all table.takes = false →
        (∃ failure, (putAll table items).1 = .error failure) ∧
        (∃ values, (putAll table (items.takeWhile table.takes)).1 = .ok values) ∧
        (putAll table items).2 = (putAll table (items.takeWhile table.takes)).2) := by
  induction items generalizing table with
  | nil => exact ⟨fun _ => ⟨[], rfl⟩, fun none => nomatch none⟩
  | cons item rest ih =>
    rcases putAll_cons table item with
      ⟨refused, failure, failed⟩ | ⟨key, result, read, plain, done⟩
    · rw [List.all_cons, refused, List.takeWhile_cons, refused, failed]
      exact ⟨fun none => (nomatch none), fun _ => ⟨⟨failure, rfl⟩, ⟨[], rfl⟩, rfl⟩⟩
    · have takes : table.takes item = true := by
        rw [Contents.takes, read, plain]
        rfl
      have same : (table.store key item).takes = table.takes := rfl
      obtain ⟨all, some⟩ := ih (table.store key item)
      rw [List.all_cons, takes, Bool.true_and, List.takeWhile_cons, takes, if_pos rfl, done, done]
      rw [same] at all some
      refine ⟨fun fits => ?_, fun misfit => ?_⟩
      · obtain ⟨values, below⟩ := all fits
        exact ⟨_, congrArg (Except.map _) below⟩
      · obtain ⟨⟨failure, failed⟩, ⟨values, below⟩, kept⟩ := some misfit
        exact ⟨⟨failure, congrArg (Except.map _) failed⟩, ⟨_, congrArg (Except.map _) below⟩, kept⟩

/-- Which items a table can store depends on the names of its key attributes alone. -/
theorem takes_congr {first second : Contents} (same : first.keyNames = second.keyNames) :
    first.takes = second.takes := by
  funext item
  rw [Contents.takes, Contents.takes, Contents.keyOf, Contents.keyOf, same]

theorem front_congr {first second : Store}
    (same : ∀ name, (first.table name).keyNames = (second.table name).keyNames)
    (tables : BatchRequest) : first.front tables = second.front tables := by
  induction tables with
  | nil => rfl
  | cons entry rest ih =>
    obtain ⟨name, items⟩ := entry
    rw [front, front, takes_congr (same name), ih]

/-- The front of a batch of puts succeeds, and the whole batch stores no more than it. -/
theorem batchPut_front (store : Store) (tables : BatchRequest) :
    (∃ results, (store.batchPut (store.front tables)).1 = .ok results) ∧
      (store.batchPut tables).2 = (store.batchPut (store.front tables)).2 := by
  induction tables generalizing store with
  | nil => exact ⟨⟨[], rfl⟩, rfl⟩
  | cons entry rest ih =>
    obtain ⟨name, items⟩ := entry
    obtain ⟨all, some⟩ := putAll_takes (store.table name) items
    rw [front]
    cases fits : items.all (store.table name).takes with
    | false =>
      obtain ⟨⟨failure, failed⟩, ⟨values, stored⟩, kept⟩ := some fits
      rw [if_neg Bool.false_ne_true, batchPut_cons, batchPut_cons, failed, stored, kept]
      exact ⟨⟨_, rfl⟩, rfl⟩
    | true =>
      obtain ⟨values, stored⟩ := all fits
      rw [if_pos rfl, batchPut_cons, batchPut_cons, stored]
      have kept : ∀ other, (Store.table (Dict.insert store name
          (putAll (store.table name) items).2) other).keyNames = (store.table other).keyNames := by
        intro other
        rw [table_insert]
        split
        · rename_i same
          rw [keyNames_putAll, same]
        · rfl
      obtain ⟨⟨results, below⟩, same⟩ :=
        ih (Dict.insert store name (putAll (store.table name) items).2)
      rw [front_congr kept] at below same
      exact ⟨⟨_, congrArg (Except.map _) below⟩, same⟩

/-! ### Requests that fail -/

section

variable {store : Store} {name : String} {failure : Failure}

/-- A write that fails only lets the table learn its key. -/
theorem write_failed {key : Item} {change : Contents → Except Failure (Json × Contents)}
    (failed : (store.write name key change).1 = .error failure) :
    (store.write name key change).2 =
      Dict.insert store name ((store.table name).learnKey key) := by
  rw [write] at failed ⊢
  cases changed : change ((store.table name).learnKey key) with
  | ok done =>
    simp only [changed] at failed
    cases failed
  | error failure => rfl

/-- A deletion that fails leaves the store alone. -/
theorem deleteItem_failed (sound : store.Sound) {request : KeyedRequest}
    (failed : (store.deleteItem name request).1 = .error failure) :
    (store.deleteItem name request).2 = store := by
  cases checked : checkCondition request.condition ((store.table name).find? request.key) with
  | error failure => rw [deleteItem_of_error checked]
  | ok _ =>
    obtain ⟨after, same, _⟩ := deleteItem_of_ok checked
    obtain ⟨value, plain⟩ := (sound name).plain_find request.key
    rw [same, plain] at failed
    cases failed

/-- Reading leaves the store alone. -/
theorem andThen_snd {α : Type} (store : Store) (read : Except Failure α)
    (answer : α → Except Failure Json) :
    (store.andThen read fun fields => (answer fields, store)).2 = store := by
  cases read <;> rfl

/-- A request that cannot be read leaves the store alone. -/
theorem fieldsOf_error {α : Type} {operation : Operation} {request : Json} {read : Json → Option α}
    (failed : fieldsOf operation request read = .error failure) : read request = none := by
  rw [fieldsOf] at failed
  split at failed
  · cases failed
  · assumption

theorem perform_failed (sound : store.Sound) {operation : Operation} {request : Json}
    (named : operation? request = some operation)
    (failed : (store.perform name operation request).1 = .error failure) :
    (store.perform name operation request).2 = store.left name request := by
  rw [left, writtenKey?, putTables?, named]
  unfold perform at failed ⊢
  cases operation with
  | getItem | query | scan | batchGetItem => exact andThen_snd store _ _
  | putItem =>
    cases read : fieldsOf .putItem request KeyedRequest.ofJson? with
    | error failure =>
      rw [fieldsOf_error read]
      rfl
    | ok fields =>
      rw [fieldsOf_ok read]
      simp only [read, andThen] at failed ⊢
      exact write_failed failed
  | updateItem =>
    cases read : fieldsOf .updateItem request KeyedRequest.ofJson? with
    | error failure =>
      rw [fieldsOf_error read]
      rfl
    | ok fields =>
      rw [fieldsOf_ok read, Option.bind_some]
      simp only [read, andThen] at failed ⊢
      cases update : updateOf fields with
      | error failure => rfl
      | ok update =>
        simp only [update] at failed ⊢
        exact write_failed failed
  | deleteItem =>
    cases read : fieldsOf .deleteItem request KeyedRequest.ofJson? with
    | error failure => rfl
    | ok fields =>
      simp only [read] at failed ⊢
      exact deleteItem_failed sound failed
  | batchPutItem =>
    cases read : fieldsOf .batchPutItem request (BatchRequest.ofJson? items?) with
    | error failure =>
      simp only [fieldsOf_error read]
      rfl
    | ok tables =>
      simp only [fieldsOf_ok read]
      exact (batchPut_front store tables).2
  | batchDeleteItem =>
    cases read : fieldsOf .batchDeleteItem request (BatchRequest.ofJson? items?) with
    | error failure => rfl
    | ok tables =>
      obtain ⟨results, done⟩ := sound.batchDelete_ok tables
      simp only [read, andThen, done] at failed
      cases failed

/-- **What a failing request leaves behind.** -/
theorem execute_failed (sound : store.Sound) {request : Json}
    (failed : (store.execute name request).1 = .error failure) :
    (store.execute name request).2 = store.left name request := by
  have unnamed : operation? request = none → store = store.left name request := by
    intro none
    rw [left, writtenKey?, putTables?, none]
  rw [execute] at failed ⊢
  cases given : (request.field? "operation").bind Json.string? with
  | none => exact unnamed (by rw [operation?, given]; rfl)
  | some text =>
    cases named : Operation.ofName? text with
    | none =>
      simp only [named]
      exact unnamed (by rw [operation?, given]; exact named)
    | some operation =>
      simp only [given, named] at failed ⊢
      exact perform_failed sound (by rw [operation?, given]; exact named) failed

end

/-! ### Stores with the same tables -/

section

variable {first second : Store}

theorem Agree.symm (agree : Agree first second) : Agree second first :=
  fun name => (agree name).symm

theorem Agree.trans {third : Store} (agree : Agree first second) (next : Agree second third) :
    Agree first third :=
  fun name => (agree name).trans (next name)

/-- Whether two stores answer alike and have the same tables afterwards. -/
def Alike {α : Type} (first second : α × Store) : Prop :=
  first.1 = second.1 ∧ Agree first.2 second.2

theorem write_alike (agree : Agree first second) (name : String) (key : Item)
    (change : Contents → Except Failure (Json × Contents)) :
    Alike (first.write name key change) (second.write name key change) := by
  rw [write, write, agree name]
  cases change ((second.table name).learnKey key) with
  | error failure => exact ⟨rfl, agree.insert _ _⟩
  | ok done => exact ⟨rfl, agree.insert _ _⟩

theorem deleteItem_alike (agree : Agree first second) (name : String) (request : KeyedRequest) :
    Alike (first.deleteItem name request) (second.deleteItem name request) := by
  cases checked : checkCondition request.condition ((first.table name).find? request.key) with
  | error failure =>
    rw [deleteItem_of_error checked, deleteItem_of_error (agree name ▸ checked)]
    exact ⟨rfl, agree⟩
  | ok _ =>
    obtain ⟨after, same, removed⟩ := deleteItem_of_ok checked
    obtain ⟨after', same', removed'⟩ := deleteItem_of_ok (agree name ▸ checked)
    rw [same, same', agree name]
    rw [agree name] at removed
    exact ⟨rfl, removed.trans ((agree.insert _ _).trans removed'.symm)⟩

theorem batchPut_alike (agree : Agree first second) (tables : BatchRequest) :
    Alike (first.batchPut tables) (second.batchPut tables) := by
  induction tables generalizing first second with
  | nil => exact ⟨rfl, agree⟩
  | cons entry rest ih =>
    obtain ⟨name, items⟩ := entry
    rw [batchPut_cons, batchPut_cons, agree name]
    have middle := agree.insert name (putAll (second.table name) items).2
    cases (putAll (second.table name) items).1 with
    | error failure => exact ⟨rfl, middle⟩
    | ok values =>
      obtain ⟨same, below⟩ := ih middle
      exact ⟨congrArg (Except.map _) same, below⟩

theorem batchDelete_alike (agree : Agree first second) (tables : BatchRequest) :
    Alike (first.batchDelete tables) (second.batchDelete tables) := by
  induction tables generalizing first second with
  | nil => exact ⟨rfl, agree⟩
  | cons entry rest ih =>
    obtain ⟨name, keys⟩ := entry
    obtain ⟨middle, removed, same⟩ := batchDelete_cons first name keys rest
    obtain ⟨middle', removed', same'⟩ := batchDelete_cons second name keys rest
    rw [same, same', agree name]
    rw [agree name] at removed
    have agreeMiddle := removed.trans ((agree.insert _ _).trans removed'.symm)
    cases (removeAll (second.table name) keys).1 with
    | error failure => exact ⟨rfl, agreeMiddle⟩
    | ok values =>
      obtain ⟨same, below⟩ := ih agreeMiddle
      exact ⟨congrArg (Except.map _) same, below⟩

/-- A part of a request that is read first, whatever the store. -/
theorem andThen_alike {α : Type} (agree : Agree first second) {read : Except Failure α}
    {goOn goOn' : α → Except Failure Json × Store}
    (alike : ∀ fields, Alike (goOn fields) (goOn' fields)) :
    Alike (first.andThen read goOn) (second.andThen read goOn') := by
  cases read with
  | error failure => exact ⟨rfl, agree⟩
  | ok fields => exact alike fields

theorem perform_alike (agree : Agree first second) (name : String) (operation : Operation)
    (request : Json) :
    Alike (first.perform name operation request) (second.perform name operation request) := by
  have tables : first.table = second.table := funext agree
  cases operation with
  | getItem =>
    refine andThen_alike agree fun fields => ⟨?_, agree⟩
    rw [getItem, getItem, agree name]
  | query | scan =>
    refine andThen_alike agree fun fields => ⟨?_, agree⟩
    rw [list, list, agree name]
  | batchGetItem =>
    refine andThen_alike agree fun fields => ⟨?_, agree⟩
    rw [batchGet, batchGet, tables]
  | putItem => exact andThen_alike agree fun fields => write_alike agree name _ _
  | updateItem =>
    exact andThen_alike agree fun fields => andThen_alike agree fun update =>
      write_alike agree name _ _
  | deleteItem => exact andThen_alike agree fun fields => deleteItem_alike agree name fields
  | batchPutItem =>
    refine andThen_alike agree fun fields => ?_
    obtain ⟨same, after⟩ := batchPut_alike agree fields
    exact ⟨congrArg (Except.map _) same, after⟩
  | batchDeleteItem =>
    refine andThen_alike agree fun fields => ?_
    obtain ⟨same, after⟩ := batchDelete_alike agree fields
    exact ⟨congrArg (Except.map _) same, after⟩

/-- Stores with the same tables answer a request alike and have the same tables afterwards. -/
theorem execute_alike (agree : Agree first second) (name : String) (request : Json) :
    Alike (first.execute name request) (second.execute name request) := by
  rw [execute, execute]
  cases (request.field? "operation").bind Json.string? with
  | none => exact ⟨rfl, agree⟩
  | some text =>
    cases named : Operation.ofName? text with
    | none =>
      simp only [named]
      exact ⟨rfl, agree⟩
    | some operation =>
      simp only [named]
      exact perform_alike agree name operation request

/-- The answers to requests that are sent one after another, each with the name of a table. -/
def answers (store : Store) : List (String × Json) → List (Except Failure Json)
  | [] => []
  | (name, request) :: rest =>
    (store.execute name request).1 :: answers (store.execute name request).2 rest

/-- Stores with the same tables answer all requests alike. -/
theorem answers_agree (agree : Agree first second) (requests : List (String × Json)) :
    first.answers requests = second.answers requests := by
  induction requests generalizing first second with
  | nil => rfl
  | cons entry rest ih =>
    obtain ⟨name, request⟩ := entry
    obtain ⟨same, after⟩ := execute_alike agree name request
    rw [answers, answers, same, ih after]

end

end Store

/-! ### When a failing request has no effect -/

/-- A table whose key attributes are known or that gets an empty key learns nothing. -/
theorem learnKey_eq_self (table : Contents) (key : Item) :
    table.learnKey key = table ↔ ¬ (table.keyNames = [] ∧ key ≠ []) := by
  have unnamed : (Index.ofEntries key).map Prod.fst = [] ↔ key = [] := by
    rw [List.map_eq_nil_iff, Index.ofEntries_eq_nil]
  rw [Contents.learnKey]
  cases known : table.keyNames with
  | cons first rest => simp
  | nil =>
    rw [List.isEmpty_nil, if_pos rfl]
    obtain ⟨keyNames, items⟩ := table
    subst known
    simp [unnamed]

/-- A table written back agrees with the store exactly if it is the one that was there. -/
theorem Store.insert_agree_iff (store : Store) (name : String) (table : Contents) :
    Agree (Dict.insert store name table) store ↔ table = store.table name := by
  constructor
  · intro agree
    rw [← agree name, table_insert, if_pos rfl]
  · rintro rfl
    exact agree_insert_table store name

theorem Store.left_agree_iff (store : Store) (name : String) (request : Json) :
    (store.left name request).Agree store ↔ ¬ store.Disturbs name request := by
  rw [left, Disturbs]
  cases written : writtenKey? request with
  | some key =>
    have noBatch : putTables? request = none := by
      rw [writtenKey?] at written
      rw [putTables?]
      split at written <;> simp_all
    rw [noBatch]
    show Agree (Dict.insert store name _) store ↔ _
    rw [insert_agree_iff, learnKey_eq_self]
    simp
  | none =>
    cases batch : putTables? request with
    | none =>
      simp only [reduceCtorEq, false_and, exists_false, or_self, not_false_eq_true, iff_true]
      exact fun _ => rfl
    | some tables => simp

/-- **A failing request has no effect exactly if it does not disturb the store.** -/
theorem failed_request {store : Store} (reached : Reached store) {name : String} {request : Json}
    {failure : Failure} (failed : (store.execute name request).1 = .error failure) :
    (store.execute name request).2 = store.left name request ∧
      ((store.execute name request).2.Agree store ↔ ¬ store.Disturbs name request) ∧
      (¬ store.Disturbs name request → ∀ requests,
        (store.execute name request).2.answers requests = store.answers requests) := by
  have left := Store.execute_failed reached.sound failed
  have undisturbed := store.left_agree_iff name request
  rw [left]
  exact ⟨rfl, undisturbed, fun quiet => Store.answers_agree (undisturbed.mpr quiet)⟩

/-! ### Two requests that fail -/

namespace Disturbing

/-- A text attribute. -/
def text (content : String) : Json := Attribute.tagged "S" (.string content)

/-- A put with an attribute of no type. -/
def put : Json :=
  .object
    [("operation", .string "PutItem"), ("key", .object [("id", text "1")]),
      ("attributeValues", .object [("age", Attribute.tagged "T" (.string "old"))])]

/-- A batch of puts whose second item has no key. -/
def batch : Json :=
  .object
    [("operation", .string "BatchPutItem"),
      ("tables", .object [("posts", .array [.object [("id", text "1")], .object []])])]

/-- The store after the put, which fails. -/
def store : Store := (Store.execute [] "posts" put).2

theorem reached : Reached store := .request .empty "posts" put

/-- **The put makes the table learn its key, and the batch stores its first item.** -/
theorem failed_requests_disturb :
    (Store.execute [] "posts" put).1 =
        .error (.attribute (.value (Attribute.tagged "T" (.string "old")))) ∧
      (Store.table [] "posts").keyNames = [] ∧ (store.table "posts").keyNames = ["id"] ∧
      Reached store ∧ (store.execute "posts" batch).1 = .error (.missingKey "id") ∧
      (store.table "posts").items.values = [] ∧
      ((store.execute "posts" batch).2.table "posts").items.values = [[("id", text "1")]] :=
  ⟨rfl, rfl, rfl, reached, rfl, rfl, rfl⟩

/-- The put does not disturb the store again, and whatever comes later is answered as without it. -/
theorem failed_put_again :
    (store.execute "posts" put).1 =
        .error (.attribute (.value (Attribute.tagged "T" (.string "old")))) ∧
      ¬ store.Disturbs "posts" put ∧
      ∀ requests, (store.execute "posts" put).2.answers requests = store.answers requests := by
  have failed : (store.execute "posts" put).1 =
      .error (.attribute (.value (Attribute.tagged "T" (.string "old")))) := rfl
  have quiet : ¬ store.Disturbs "posts" put := by
    have known : (store.table "posts").keyNames = ["id"] := rfl
    have noBatch : putTables? put = none := rfl
    simp [Store.Disturbs, known, noBatch]
  exact ⟨failed, quiet, (failed_request reached failed).2.2 quiet⟩

end Disturbing

end FieldResolver.Table
