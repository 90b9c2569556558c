/-
**Reading and deleting what is stored.**

In a store that requests lead to, every item has a plain form. So nothing that is stored makes a
read or a deletion fail: whether one is answered depends on the request alone, and for a deletion on
its condition. A deletion that fails removes nothing.

* `Met`: whether a condition holds of an item;
* `Store.Posed`: the reads and deletions that are in order;
* `Store.Sound.answers_posed`, `posed_of_answered`: these are the ones that are answered;
* `Reached.readable`: so it is in every store that requests lead to.
-/

import FieldResolver.Proofs.Table.History
import FieldResolver.Proofs.Table.Listing

namespace FieldResolver.Table

open Fallible

/-- Whether an operation stores items; the others read or delete. -/
def Operation.stores : Operation → Bool
  | .putItem | .updateItem | .batchPutItem => true
  | _ => false

/-- Whether a condition can be parsed and holds of an item; a missing one has no attributes. -/
def Met (condition : Option Expression) (found : Option Item) : Prop :=
  ∀ expression, condition = some expression →
    ∃ formula, expression.condition = .ok formula ∧ formula.holds (found.getD []) = true

/-- Whether a read or a deletion is in order. -/
inductive Store.Posed (store : Store) (name : String) (request : Json) : Prop where
  | getItem {fields : KeyedRequest} (named : operation? request = some .getItem)
      (read : KeyedRequest.ofJson? request = some fields)
  | batchGetItem {tables : BatchRequest} (named : operation? request = some .batchGetItem)
      (read : BatchRequest.ofJson? tableKeys? request = some tables)
  | listing {listing : Listing} (lists : Lists request listing)
  | deleteItem {fields : KeyedRequest} (named : operation? request = some .deleteItem)
      (read : KeyedRequest.ofJson? request = some fields)
      (met : Met fields.condition ((store.table name).find? fields.key))
  | batchDeleteItem {tables : BatchRequest} (named : operation? request = some .batchDeleteItem)
      (read : BatchRequest.ofJson? items? request = some tables)

theorem checkCondition_ok_iff {condition : Option Expression} {found : Option Item} :
    checkCondition condition found = .ok () ↔ Met condition found := by
  constructor
  · rintro done expression rfl
    obtain ⟨formula, parsed, done⟩ := bind_ok done
    refine ⟨formula, mapError_ok parsed, ?_⟩
    by_contra fails
    rw [if_neg fails] at done
    cases done
  · intro met
    cases condition with
    | none => rfl
    | some expression =>
      obtain ⟨formula, parsed, holds⟩ := met expression rfl
      simp only [checkCondition, parsed]
      exact if_pos holds

section

variable {store : Store} {name : String} {request : Json}

/-- A part of a request that is read first has been read if the request is answered. -/
theorem andThen_ok {α : Type} {read : Except Failure α} {next : α → Except Failure Json × Store}
    {answer : Json} (done : (store.andThen read next).1 = .ok answer) :
    ∃ fields, read = .ok fields ∧ (next fields).1 = .ok answer := by
  cases read with
  | error failure => cases done
  | ok fields => exact ⟨fields, rfl, done⟩

/-- Reading items of several tables does not fail. -/
theorem Store.Sound.batchGet_ok (sound : store.Sound) (tables : BatchRequest) :
    ∃ answer, store.batchGet tables = .ok answer := by
  have each : ∀ entry ∈ tables, ∃ result : String × Json,
      (do let items ← entry.2.mapM fun key => plain ((store.table entry.1).find? key)
          Except.ok (entry.1, Json.array items)) = .ok result := by
    intro entry _
    have found : ∀ key ∈ entry.2, ∃ value, plain ((store.table entry.1).find? key) = .ok value :=
      fun key _ => (sound entry.1).plain_find key
    obtain ⟨items, read⟩ := mapM_ok found
    exact ⟨(entry.1, .array items), by rw [read]; rfl⟩
  obtain ⟨results, read⟩ := mapM_ok each
  refine ⟨Store.batchAnswer "unprocessedKeys" results, ?_⟩
  show (tables.mapM _ >>= fun results => _) = _
  rw [read]
  rfl

/-- **What is in order is answered**, whatever is stored. -/
theorem Store.Sound.answers_posed (sound : store.Sound) (posed : store.Posed name request) :
    ∃ answer, (store.execute name request).1 = .ok answer := by
  cases posed with
  | getItem named read =>
    rw [execute_getItem store name named read]
    exact (sound name).plain_find _
  | batchGetItem named read =>
    rw [Store.execute_eq_perform store name named, Store.perform, Store.fieldsOf, read]
    exact sound.batchGet_ok _
  | listing lists =>
    obtain ⟨items, _, done⟩ := Listing.page_ok _ (sound name)
    rw [lists.execute_eq, done]
    exact ⟨_, rfl⟩
  | deleteItem named read met =>
    obtain ⟨after, same, _⟩ := Store.deleteItem_of_ok (checkCondition_ok_iff.mpr met)
    rw [Store.execute_deleteItem store name named read, same]
    exact (sound name).plain_find _
  | batchDeleteItem named read =>
    rw [Store.execute_eq_perform store name named, Store.perform, Store.fieldsOf, read]
    obtain ⟨results, done⟩ := sound.batchDelete_ok _
    exact ⟨_, congrArg (Except.map _) done⟩

/-- What is answered was in order. -/
theorem posed_of_answered {operation : Operation} (named : operation? request = some operation)
    (reads : operation.stores = false) {answer : Json}
    (done : (store.execute name request).1 = .ok answer) : store.Posed name request := by
  rw [Store.execute_eq_perform store name named] at done
  cases operation with
  | putItem | updateItem | batchPutItem => cases reads
  | getItem =>
    obtain ⟨fields, read, _⟩ := andThen_ok done
    exact .getItem named (fieldsOf_ok read)
  | batchGetItem =>
    obtain ⟨tables, read, _⟩ := andThen_ok done
    exact .batchGetItem named (fieldsOf_ok read)
  | query =>
    obtain ⟨fields, read, done⟩ := andThen_ok done
    obtain ⟨queries, listing, asks⟩ := asksFor_of_list done
    exact .listing (.intro named (.inl rfl) (fieldsOf_ok read) queries asks)
  | scan =>
    obtain ⟨fields, read, done⟩ := andThen_ok done
    obtain ⟨queries, listing, asks⟩ := asksFor_of_list done
    exact .listing (.intro named (.inr rfl) (fieldsOf_ok read) queries asks)
  | deleteItem =>
    obtain ⟨fields, read, done⟩ := andThen_ok done
    refine .deleteItem named (fieldsOf_ok read) (checkCondition_ok_iff.mp ?_)
    cases checked : checkCondition fields.condition ((store.table name).find? fields.key) with
    | ok _ => rfl
    | error failure =>
      rw [Store.deleteItem_of_error checked] at done
      cases done
  | batchDeleteItem =>
    obtain ⟨tables, read, _⟩ := andThen_ok done
    exact .batchDeleteItem named (fieldsOf_ok read)

/-- **Every stored item has a plain form.** So a read or a deletion is answered exactly if it is in
order, and a deletion that fails leaves the store as it was. -/
theorem Reached.readable {store : Store} (reached : Reached store) :
    (∀ name, ∀ entry ∈ (store.table name).items,
      ∃ value, Attribute.unmarshalItem entry.2 = .ok value) ∧
    (∀ name request operation, operation? request = some operation → operation.stores = false →
      ((∃ answer, (store.execute name request).1 = .ok answer) ↔ store.Posed name request)) ∧
    ∀ name request failure, operation? request = some .deleteItem →
      (store.execute name request).1 = .error failure →
        (store.execute name request).2 = store := by
  refine ⟨fun name entry stored => ?_, fun name request operation named reads => ?_,
    fun name request failure named failed => ?_⟩
  · obtain ⟨value, plain⟩ := (reached.sound name).plain entry stored
    exact ⟨value, mapError_ok plain⟩
  · exact ⟨fun ⟨_, done⟩ => posed_of_answered named reads done, reached.sound.answers_posed⟩
  · rw [Store.execute_failed reached.sound failed, Store.left, writtenKey?, putTables?, named]

end

/-! ### A store that updates lead to -/

namespace Grown

/-- The key of the item. -/
def key : Item := [("id", Attribute.tagged "S" (.string "1"))]

/-- An update that adds a member to a set. -/
def update (member : String) : Json :=
  .object
    [("operation", .string "UpdateItem"), ("key", .object key),
      ("update", .object
        [("expression", .string "ADD tags :t"),
          ("expressionValues", .object
            [(":t", Attribute.tagged "NS" (.array [.string member]))])])]

/-- A scan. -/
def scan : Json := .object [("operation", .string "Scan"), ("scanIndexForward", .bool false)]

/-- A deletion on condition that the item has no set. -/
def deletion : Json :=
  .object
    [("operation", .string "DeleteItem"), ("key", .object key),
      ("condition", .object [("expression", .string "attribute_not_exists(tags)")])]

/-- The item with members in its set. -/
def item (members : List String) : Item :=
  key ++ [("tags", Attribute.tagged "NS" (.array (members.map .string)))]

/-- The store with the item. -/
def store (members : List String) : Store :=
  [("posts", { keyNames := ["id"], items := [(keyText key, item members)] })]

/-- What an update does. -/
def addition (member : String) : Expression.ResolvedUpdate :=
  { add := [("tags", Attribute.tagged "NS" (.array [.string member]))] }

/-- The fields of an update. -/
def fields (member : String) : KeyedRequest where
  key := key
  update := some
    { text := "ADD tags :t"
      values := [(":t", Attribute.tagged "NS" (.array [.string member]))] }

theorem execute_update (before : Store) {member : String}
    (read : KeyedRequest.ofJson? (update member) = some (fields member))
    (resolved : Store.updateOf (fields member) = .ok (addition member)) :
    before.execute "posts" (update member) = before.write "posts" key fun table =>
      Store.updateItem table (fields member) (addition member) :=
  Store.execute_updateItem before "posts" rfl read resolved

theorem reached : Reached (store ["7", "8"]) := by
  have first : (Store.execute [] "posts" (update "7")).2 = store ["7"] := by
    rw [execute_update [] (by rfl) (by rfl)]
    rfl
  have second : ((store ["7"]).execute "posts" (update "8")).2 = store ["7", "8"] := by
    rw [execute_update (store ["7"]) (by rfl) (by rfl)]
    rfl
  exact second ▸ (first ▸ Reached.empty.request "posts" (update "7")).request "posts" (update "8")

theorem refused : (store ["7", "8"]).execute "posts" deletion =
    (.error .conditionFailed, store ["7", "8"]) := by
  have named : operation? deletion = some .deleteItem := rfl
  have read : KeyedRequest.ofJson? deletion =
      some { key := key, condition := some { text := "attribute_not_exists(tags)" } } := by rfl
  have parsed : Expression.condition { text := "attribute_not_exists(tags)" } =
      .ok (.absent "tags") := Expression.condition_of_test (by rfl) rfl (by rfl)
  have found : ((store ["7", "8"]).table "posts").find? key = some (item ["7", "8"]) := by rfl
  have failed : checkCondition (some { text := "attribute_not_exists(tags)" })
      (((store ["7", "8"]).table "posts").find? key) = .error .conditionFailed := by
    rw [found, checkCondition, parsed]
    rfl
  exact (Store.execute_deleteItem _ _ named read).trans (Store.deleteItem_of_error failed)

theorem scan_posed : (store ["7", "8"]).Posed "posts" scan := by
  have lists : Lists scan ⟨none, none, false, 0, none⟩ :=
    .intro rfl (.inr rfl) rfl (fun same => nomatch same) ⟨rfl, rfl, rfl, rfl, rfl⟩
  exact .listing lists

/-- **The item that updates built is read, and a deletion that fails leaves it.** -/
theorem item_readable :
    Reached (store ["7", "8"]) ∧
      (∃ value, Attribute.unmarshalItem (item ["7", "8"]) = .ok value) ∧
      (store ["7", "8"]).Posed "posts" scan ∧
      (∃ answer, ((store ["7", "8"]).execute "posts" scan).1 = .ok answer) ∧
      ((store ["7", "8"]).execute "posts" deletion).1 = .error .conditionFailed ∧
      ((store ["7", "8"]).execute "posts" deletion).2 = store ["7", "8"] := by
  obtain ⟨plain, answered, kept⟩ := reached.readable
  have stored : (keyText key, item ["7", "8"]) ∈ ((store ["7", "8"]).table "posts").items :=
    List.mem_singleton_self _
  have failed := congrArg Prod.fst refused
  exact ⟨reached, plain "posts" _ stored, scan_posed,
    (answered "posts" scan .scan rfl rfl).mpr scan_posed, failed,
    kept "posts" deletion _ rfl failed⟩

end Grown

end FieldResolver.Table
