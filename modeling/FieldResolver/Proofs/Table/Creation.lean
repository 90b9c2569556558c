/-
**Creating an item.**

A put on condition that its item lacks an attribute of its own key creates the item: every item has
the attributes of its key, so the condition holds exactly if there is no item yet. An item stays
until it is deleted. So of the puts that create the same item, whoever sends them and whatever comes
between, at most one succeeds.

* `Creates`, `Deletes`: the requests that create an item and those that delete it;
* `Store.Has.step`: an item stays until it is deleted;
* `Creates.refused`, `Creates.accepted`: what a creation comes to where there is an item and where
  there is none;
* `Built.find_after`: what is stored while no creation can succeed;
* `Built.created_once`: what the creations of an item come to in a sequence of requests.
-/

import FieldResolver.Proofs.Table.Readable
import FieldResolver.Proofs.Table.WellFormed

namespace FieldResolver.Table

open Fallible

/-- A request and the table that it is sent to. -/
abbrev Sent := String × Json

/-- The item that a put stores. -/
def KeyedRequest.item (fields : KeyedRequest) : Item := fields.attributes.insertAll fields.key

/-- Whether a request puts an item under a key on condition that the item lacks an attribute of the
key. -/
structure Creates (name : String) (key : Item) (sent : Sent) (fields : KeyedRequest) : Prop where
  table : sent.1 = name
  named : operation? sent.2 = some .putItem
  read : KeyedRequest.ofJson? sent.2 = some fields
  same : SameKey fields.key key
  absent : ∃ expression attr, fields.condition = some expression ∧
    expression.condition = .ok (.absent attr) ∧ attr ∈ Dict.keys key

/-- Whether a request deletes a key of a table. -/
inductive Deletes (name : String) (key : Item) : Sent → Prop where
  | item {request : Json} {fields : KeyedRequest} (named : operation? request = some .deleteItem)
      (read : KeyedRequest.ofJson? request = some fields) (same : SameKey fields.key key) :
      Deletes name key (name, request)
  | batch {table : String} {request : Json} {tables : BatchRequest} {keys : List Item} {gone : Item}
      (named : operation? request = some .batchDeleteItem)
      (read : BatchRequest.ofJson? items? request = some tables) (entry : (name, keys) ∈ tables)
      (member : gone ∈ keys) (same : SameKey gone key) : Deletes name key (table, request)

namespace Store

/-- The answer to a request. -/
def reply (store : Store) (sent : Sent) : Except Failure Json := (store.execute sent.1 sent.2).1

/-- The store after a request. -/
def step (store : Store) (sent : Sent) : Store := (store.execute sent.1 sent.2).2

/-- The store after requests one after another. -/
def after (store : Store) (requests : List Sent) : Store := requests.foldl step store

/-- Whether every one of several requests is as it should be where it is executed. -/
def Through (holds : Store → Sent → Prop) : Store → List Sent → Prop
  | _, [] => True
  | store, sent :: rest => holds store sent ∧ Through holds (store.step sent) rest

/-- Whether there is something under a text in a table. -/
def Has (store : Store) (name text : String) : Prop :=
  (store.table name).items.get? text ≠ none

end Store

/-- Whether a request creates a key or leaves what is stored under it as it is. -/
def OnlyCreates (name : String) (key : Item) (store : Store) (sent : Sent) : Prop :=
  (∃ fields, Creates name key sent fields) ∨
    ((store.step sent).table name).find? key = (store.table name).find? key

/-- A request that names no operation leaves the store alone. -/
theorem Store.execute_of_none (store : Store) (name : String) {request : Json}
    (named : operation? request = none) : (store.execute name request).2 = store := by
  rw [operation?] at named
  rw [execute]
  split
  · rfl
  · rename_i given
    rw [given, Option.bind_some] at named
    rw [named]

/-! ### Items stay -/

section

variable {table : Contents} {text : String}

theorem items_learnKey (table : Contents) (key : Item) :
    (table.learnKey key).items = table.items := by
  rw [Contents.learnKey]
  split <;> rfl

theorem store_keeps (present : table.items.get? text ≠ none) (key item : Item) :
    (table.store key item).items.get? text ≠ none := by
  show (table.items.insert (keyText key) item).get? text ≠ none
  rw [Index.get?_insert]
  split
  · exact Option.some_ne_none item
  · exact present

theorem remove_keeps (present : table.items.get? text ≠ none) {key : Item}
    (other : keyText key ≠ text) : (table.remove key).items.get? text ≠ none := by
  show (table.items.erase (keyText key)).get? text ≠ none
  rwa [Index.get?_erase_of_ne _ other]

theorem putAll_keeps (present : table.items.get? text ≠ none) (items : List Item) :
    (Store.putAll table items).2.items.get? text ≠ none := by
  induction items generalizing table with
  | nil => exact present
  | cons item rest ih =>
    rcases putAll_cons table item with ⟨_, failure, failed⟩ | ⟨key, result, _, _, done⟩
    · rw [failed]
      exact present
    · rw [done]
      exact ih (store_keeps present key item)

theorem removeAll_keeps (present : table.items.get? text ≠ none) {keys : List Item}
    (others : ∀ key ∈ keys, keyText key ≠ text) :
    (Store.removeAll table keys).2.items.get? text ≠ none := by
  induction keys generalizing table with
  | nil => exact present
  | cons key rest ih =>
    obtain ⟨other, others⟩ := List.forall_mem_cons.mp others
    rcases removeAll_cons table key rest with ⟨failure, failed⟩ | ⟨result, done⟩
    · rw [failed]
      exact remove_keeps present other
    · rw [done]
      exact ih (remove_keeps present other) others

end

namespace Store.Has

variable {store : Store} {name text : String}

theorem of_agree {after : Store} (has : store.Has name text) (agree : after.Agree store) :
    after.Has name text := by
  rw [Has, agree]
  exact has

theorem insert (has : store.Has name text) {other : String} {table : Contents}
    (keeps : other = name → (store.table other).items.get? text ≠ none →
      table.items.get? text ≠ none) :
    Store.Has (Dict.insert store other table) name text := by
  rw [Has, table_insert]
  split
  · rename_i same
    exact keeps same (same ▸ has)
  · exact has

theorem write (has : store.Has name text) (other : String) (key : Item)
    {change : Contents → Except Failure (Json × Contents)}
    (stores : ∀ {table result after}, change table = .ok (result, after) →
      ∃ item, after = table.store key item) :
    Store.Has (store.write other key change).2 name text := by
  rw [Store.write]
  cases changed : change ((store.table other).learnKey key) with
  | error failure => exact has.insert fun _ present => by rwa [items_learnKey]
  | ok done =>
    obtain ⟨result, after⟩ := done
    obtain ⟨item, rfl⟩ := stores changed
    exact has.insert fun _ present => store_keeps (by rwa [items_learnKey]) key item

theorem deleteItem (has : store.Has name text) (other : String) {request : KeyedRequest}
    (spared : other = name → keyText request.key ≠ text) :
    Store.Has (store.deleteItem other request).2 name text := by
  cases checked : checkCondition request.condition ((store.table other).find? request.key) with
  | error failure =>
    rw [deleteItem_of_error checked]
    exact has
  | ok _ =>
    obtain ⟨after, same, agree⟩ := deleteItem_of_ok checked
    rw [same]
    exact of_agree (has.insert fun here present => remove_keeps present (spared here)) agree

theorem batchPut (has : store.Has name text) (tables : BatchRequest) :
    Store.Has (store.batchPut tables).2 name text := by
  induction tables generalizing store with
  | nil => exact has
  | cons entry rest ih =>
    obtain ⟨other, items⟩ := entry
    have here :
        Store.Has (Dict.insert store other (putAll (store.table other) items).2) name text :=
      has.insert fun _ present => putAll_keeps present items
    rw [batchPut_cons]
    split
    · exact here
    · exact ih here

theorem batchDelete (has : store.Has name text) {tables : BatchRequest}
    (spared : ∀ keys, (name, keys) ∈ tables → ∀ key ∈ keys, keyText key ≠ text) :
    Store.Has (store.batchDelete tables).2 name text := by
  induction tables generalizing store with
  | nil => exact has
  | cons entry rest ih =>
    obtain ⟨other, keys⟩ := entry
    obtain ⟨middle, agree, same⟩ := batchDelete_cons store other keys rest
    have here : middle.Has name text := by
      refine of_agree (has.insert fun same present => ?_) agree
      exact removeAll_keeps present (spared keys (same ▸ List.mem_cons_self))
    rw [same]
    split
    · exact here
    · exact ih here fun keys member => spared keys (List.mem_cons_of_mem _ member)

theorem andThen {α : Type} (has : store.Has name text) {read : Except Failure α}
    {next : α → Except Failure Json × Store}
    (goes : ∀ fields, read = .ok fields → Store.Has (next fields).2 name text) :
    Store.Has (store.andThen read next).2 name text := by
  cases done : read with
  | error failure => exact has
  | ok fields => exact goes fields done

theorem perform {key : Item} (has : store.Has name (keyText key)) (formed : WellFormed key)
    {sent : Sent} {operation : Operation} (named : operation? sent.2 = some operation)
    (valid : sent.2.Valid) (undeleted : ¬ Deletes name key sent) :
    Store.Has (store.perform sent.1 operation sent.2).2 name (keyText key) := by
  obtain ⟨other, request⟩ := sent
  cases operation with
  | getItem | query | scan | batchGetItem => exact has.andThen fun _ _ => has
  | putItem =>
    refine has.andThen fun fields read => has.write other fields.key fun done => ?_
    obtain ⟨item, _, _, stored⟩ := putItem_ok (KeyedRequest.key_distinct (fieldsOf_ok read)) done
    exact ⟨item, stored⟩
  | updateItem =>
    refine has.andThen fun fields _ => has.andThen fun update _ =>
      has.write other fields.key fun done => ?_
    obtain ⟨item, _, _, stored⟩ := updateItem_ok done
    exact ⟨item, stored⟩
  | deleteItem =>
    refine has.andThen fun fields read => has.deleteItem other fun here same => undeleted ?_
    have given := fieldsOf_ok read
    subst here
    exact .item named given
      ((keyText_eq_iff (KeyedRequest.key_formed valid given) formed).mp same)
  | batchPutItem => exact has.andThen fun tables _ => has.batchPut tables
  | batchDeleteItem =>
    refine has.andThen fun tables read => has.batchDelete fun keys entry gone member same =>
      undeleted ?_
    have given := fieldsOf_ok read
    have formedGone := BatchRequest.items_formed valid given _ entry gone member
    exact .batch named given entry member ((keyText_eq_iff formedGone formed).mp same)

/-- **An item stays until it is deleted.** -/
theorem step {key : Item} (has : store.Has name (keyText key)) (formed : WellFormed key)
    {sent : Sent} (valid : sent.2.Valid) (undeleted : ¬ Deletes name key sent) :
    (store.step sent).Has name (keyText key) := by
  rw [Store.step]
  cases named : operation? sent.2 with
  | some operation =>
    rw [execute_eq_perform store sent.1 named]
    exact has.perform formed named valid undeleted
  | none =>
    rw [execute_of_none store sent.1 named]
    exact has

/-- It stays through any number of requests that do not delete it. -/
theorem after {key : Item} (has : store.Has name (keyText key)) (formed : WellFormed key)
    {requests : List Sent} (valid : ∀ sent ∈ requests, sent.2.Valid)
    (undeleted : ∀ sent ∈ requests, ¬ Deletes name key sent) :
    (store.after requests).Has name (keyText key) := by
  induction requests generalizing store with
  | nil => exact has
  | cons sent rest ih =>
    obtain ⟨validHere, valid⟩ := List.forall_mem_cons.mp valid
    obtain ⟨undeletedHere, undeleted⟩ := List.forall_mem_cons.mp undeleted
    exact ih (has.step formed validHere undeletedHere) valid undeleted

end Store.Has

/-! ### What a creation comes to -/

/-- A condition that an attribute is missing. -/
theorem checkCondition_absent {expression : Expression} {attr : String} (found : Option Item)
    (parsed : expression.condition = .ok (.absent attr)) :
    checkCondition (some expression) found =
      if (found.getD []).contains attr then .error .conditionFailed else .ok () := by
  simp only [checkCondition, parsed]
  show (if (!(found.getD []).contains attr) = true then _ else _) = _
  cases (found.getD []).contains attr <;> rfl

/-- What is stored under a key has the attributes of the key. -/
theorem Kept.contains {key item : Item} (kept : Kept (keyText key) item) (formed : WellFormed key)
    {attr : String} (own : attr ∈ Dict.keys key) : item.contains attr = true := by
  obtain ⟨stored, formedStored, same, carries⟩ := kept.under
  have sameKey := (keyText_eq_iff formed formedStored).mp same
  have given : key.get? attr ≠ none := fun none => (Dict.get?_eq_none_iff key attr).mp none own
  obtain ⟨value, given⟩ := Option.ne_none_iff_exists'.mp given
  obtain ⟨found, read, _⟩ := carries attr value ((sameKey attr).symm.trans given)
  rw [Dict.contains, read]
  rfl

section

variable {store : Store} {name : String} {key : Item} {sent : Sent} {fields : KeyedRequest}

theorem Creates.keyText_eq (creates : Creates name key sent fields) (formed : WellFormed key)
    (valid : sent.2.Valid) : keyText fields.key = keyText key :=
  (keyText_eq_iff (KeyedRequest.key_formed valid creates.read) formed).mpr creates.same

/-- A creation writes to its table. -/
theorem Creates.execute_eq (creates : Creates name key sent fields) (store : Store) :
    store.execute sent.1 sent.2 =
      store.write name fields.key fun table => Store.putItem table fields := by
  rw [← creates.table]
  exact Store.execute_putItem store sent.1 creates.named creates.read

/-- The condition of a creation fails where there is an item. -/
theorem Creates.check_of_has (creates : Creates name key sent fields) (formed : WellFormed key)
    (valid : sent.2.Valid) (kept : store.Kept) (has : store.Has name (keyText key)) :
    checkCondition fields.condition ((store.table name).find? fields.key) =
      .error .conditionFailed := by
  obtain ⟨expression, attr, given, parsed, own⟩ := creates.absent
  obtain ⟨item, found⟩ := Option.ne_none_iff_exists'.mp has
  have contains := ((kept name).entries _ (Index.mem_of_get? found)).contains formed own
  rw [given, checkCondition_absent _ parsed, Contents.find?, creates.keyText_eq formed valid, found]
  exact if_pos contains

/-- It holds where there is none. -/
theorem Creates.check_of_none (creates : Creates name key sent fields) :
    checkCondition fields.condition none = .ok () := by
  obtain ⟨expression, attr, given, parsed, _⟩ := creates.absent
  rw [given, checkCondition_absent _ parsed]
  rfl

/-- A put that fails leaves the items of its table alone. -/
theorem write_of_error {change : Contents → Except Failure (Json × Contents)} {failure : Failure}
    (failed : change ((store.table name).learnKey fields.key) = .error failure) (other : Item) :
    (store.write name fields.key change).1 = .error failure ∧
      ((store.write name fields.key change).2.table name).find? other =
        (store.table name).find? other := by
  rw [Store.write, failed]
  refine ⟨rfl, ?_⟩
  rw [Store.table_insert, if_pos rfl, Contents.find?, items_learnKey, Contents.find?]

/-- **Where there is an item, a creation fails**, and the item stays as it is. -/
theorem Creates.refused (creates : Creates name key sent fields) (formed : WellFormed key)
    (valid : sent.2.Valid) (kept : store.Kept) (has : store.Has name (keyText key)) :
    store.reply sent = .error .conditionFailed ∧
      ((store.step sent).table name).find? key = (store.table name).find? key := by
  have failed : Store.putItem ((store.table name).learnKey fields.key) fields =
      .error .conditionFailed := by
    rw [Store.putItem, Contents.find?, items_learnKey, ← Contents.find?,
      creates.check_of_has formed valid kept has]
    rfl
  rw [Store.reply, Store.step, creates.execute_eq]
  exact write_of_error failed key

/-- Where there is none, what a creation puts depends on the plain form of the item. -/
theorem Creates.putItem_of_none (creates : Creates name key sent fields) (formed : WellFormed key)
    (valid : sent.2.Valid) (absent : (store.table name).find? key = none) :
    Store.putItem ((store.table name).learnKey fields.key) fields = (do
      let value ← plainItem fields.item
      return (value, ((store.table name).learnKey fields.key).store fields.key fields.item)) := by
  rw [Contents.find?, ← creates.keyText_eq formed valid] at absent
  rw [Store.putItem, Contents.find?, items_learnKey, absent, creates.check_of_none]
  rfl

/-- Where there is none, a creation fails if the item has no plain form. -/
theorem Creates.malformed (creates : Creates name key sent fields) (formed : WellFormed key)
    (valid : sent.2.Valid) (absent : (store.table name).find? key = none) {failure : Failure}
    (unreadable : plainItem fields.item = .error failure) :
    store.reply sent = .error failure ∧
      ((store.step sent).table name).find? key = (store.table name).find? key := by
  have failed : Store.putItem ((store.table name).learnKey fields.key) fields =
      .error failure := by
    rw [creates.putItem_of_none formed valid absent, unreadable]
    rfl
  rw [Store.reply, Store.step, creates.execute_eq]
  exact write_of_error failed key

/-- **Where there is none, a creation stores the item** and answers with it if it has a plain
form. -/
theorem Creates.accepted (creates : Creates name key sent fields) (formed : WellFormed key)
    (valid : sent.2.Valid) (absent : (store.table name).find? key = none) {value : Json}
    (plain : plainItem fields.item = .ok value) :
    store.reply sent = .ok value ∧
      ((store.step sent).table name).find? key = some fields.item := by
  have done : Store.putItem ((store.table name).learnKey fields.key) fields =
      .ok (value, ((store.table name).learnKey fields.key).store fields.key fields.item) := by
    rw [creates.putItem_of_none formed valid absent, plain]
    rfl
  rw [Store.reply, Store.step, creates.execute_eq, Store.write, done]
  refine ⟨rfl, ?_⟩
  rw [Store.table_insert, if_pos rfl, Contents.find?, ← creates.keyText_eq formed valid]
  exact Index.get?_insert_self _ _ _

/-- After a creation that succeeds there is an item. -/
theorem Creates.has_of_ok (creates : Creates name key sent fields) (formed : WellFormed key)
    (valid : sent.2.Valid) (kept : store.Kept) {value : Json}
    (done : store.reply sent = .ok value) :
    (store.step sent).Has name (keyText key) := by
  by_cases has : store.Has name (keyText key)
  · rw [(creates.refused formed valid kept has).1] at done
    cases done
  · have absent : (store.table name).find? key = none := not_not.mp has
    cases plain : plainItem fields.item with
    | error failure =>
      rw [(creates.malformed formed valid absent plain).1] at done
      cases done
    | ok result =>
      rw [Store.Has, ← Contents.find?, (creates.accepted formed valid absent plain).2]
      exact Option.some_ne_none _

end

theorem not_deletes {name : String} {key : Item} {sent : Sent} {operation : Operation}
    (named : operation? sent.2 = some operation)
    (item : operation ≠ .deleteItem) (batch : operation ≠ .batchDeleteItem) :
    ¬ Deletes name key sent := by
  rintro (⟨gone, _, _⟩ | ⟨gone, _, _, _, _⟩)
  · exact item (Option.some.inj (named.symm.trans gone))
  · exact batch (Option.some.inj (named.symm.trans gone))

/-! ### Sequences of requests -/

section

variable {store : Store} {name : String} {key : Item}

theorem Built.after (built : Built store) {requests : List Sent}
    (valid : ∀ sent ∈ requests, sent.2.Valid) : Built (store.after requests) := by
  induction requests generalizing store with
  | nil => exact built
  | cons sent rest ih =>
    obtain ⟨here, others⟩ := List.forall_mem_cons.mp valid
    exact ih (built.request sent.1 here) others

theorem Store.after_append (store : Store) (front back : List Sent) :
    store.after (front ++ back) = (store.after front).after back :=
  List.foldl_append

theorem Store.through_append {holds : Store → Sent → Prop} {front back : List Sent} :
    store.Through holds (front ++ back) ↔
      store.Through holds front ∧ (store.after front).Through holds back := by
  induction front generalizing store with
  | nil => exact iff_of_eq (true_and _).symm
  | cons sent rest ih =>
    show holds store sent ∧ (store.step sent).Through holds (rest ++ back) ↔ _
    rw [ih, ← and_assoc]
    rfl

/-- Whether no creation of a key has an item with a plain form. -/
def Unreadable (name : String) (key : Item) (requests : List Sent) : Prop :=
  ∀ sent ∈ requests, ∀ fields, Creates name key sent fields →
    ∀ value, plainItem fields.item ≠ .ok value

/-- As long as nothing but creations write a key, and none of them can succeed, what is stored under
it stays as it is. -/
theorem Built.find_after (built : Built store) (formed : WellFormed key) {requests : List Sent}
    (valid : ∀ sent ∈ requests, sent.2.Valid)
    (only : store.Through (OnlyCreates name key) requests)
    (idle : store.Has name (keyText key) ∨ Unreadable name key requests) :
    ((store.after requests).table name).find? key = (store.table name).find? key := by
  induction requests generalizing store with
  | nil => rfl
  | cons sent rest ih =>
    obtain ⟨validHere, valid⟩ := List.forall_mem_cons.mp valid
    obtain ⟨here, only⟩ := only
    have same : ((store.step sent).table name).find? key = (store.table name).find? key := by
      rcases here with ⟨fields, creates⟩ | same
      · by_cases has : store.Has name (keyText key)
        · exact (creates.refused formed validHere built.kept has).2
        · have absent : (store.table name).find? key = none := not_not.mp has
          cases plain : plainItem fields.item with
          | error failure => exact (creates.malformed formed validHere absent plain).2
          | ok value =>
            exact absurd plain (idle.resolve_left has sent List.mem_cons_self fields creates value)
      · exact same
    have idleBelow : (store.step sent).Has name (keyText key) ∨ Unreadable name key rest := by
      refine idle.imp (fun has => ?_) fun unreadable other member =>
        unreadable other (List.mem_cons_of_mem _ member)
      rw [Store.Has, ← Contents.find?, same]
      exact has
    exact (ih (built.request sent.1 validHere) valid only idleBelow).trans same

/-- After a creation that succeeds all others fail. -/
theorem Built.second_fails (built : Built store) (formed : WellFormed key) {first second : Sent}
    {middle : List Sent} (validFirst : first.2.Valid)
    (validMiddle : ∀ sent ∈ middle, sent.2.Valid) (validSecond : second.2.Valid)
    (undeleted : ∀ sent ∈ middle, ¬ Deletes name key sent)
    {fields fields' : KeyedRequest} (creates : Creates name key first fields)
    (creates' : Creates name key second fields') {value : Json}
    (done : store.reply first = .ok value) :
    (store.after (first :: middle)).reply second = .error .conditionFailed := by
  have stored := creates.has_of_ok formed validFirst built.kept done
  have builtMiddle := (built.request first.1 validFirst).after validMiddle
  exact (creates'.refused formed validSecond builtMiddle.kept
    (stored.after formed validMiddle undeleted)).1

/-- As long as there is no item, creations fail whose items have no plain form. -/
theorem Built.fails_before (built : Built store) (formed : WellFormed key)
    (absent : (store.table name).find? key = none) {front : List Sent} {other : Sent}
    (validFront : ∀ sent ∈ front, sent.2.Valid) (validOther : other.2.Valid)
    (only : store.Through (OnlyCreates name key) front) (unreadable : Unreadable name key front)
    {fields : KeyedRequest} (creates : Creates name key other fields)
    (misfit : ∀ value, plainItem fields.item ≠ .ok value) :
    ∃ cause, (store.after front).reply other = .error (.attribute cause) := by
  have same := built.find_after formed validFront only (.inr unreadable)
  cases plain : Attribute.unmarshalItem fields.item with
  | error cause =>
    have failed : plainItem fields.item = .error (.attribute cause) :=
      congrArg (Except.mapError Failure.attribute) plain
    exact ⟨cause, (creates.malformed formed validOther (same.trans absent) failed).1⟩
  | ok value => exact absurd (congrArg (Except.mapError Failure.attribute) plain) (misfit value)

/-- Whether a creation wins among requests: it succeeds, the creations in front of it fail as their
items have no plain form, those behind it fail as there is an item, and the item is read in the
end. -/
structure Store.WonBy (store : Store) (name : String) (key : Item) (front : List Sent)
    (winner : Sent) (back : List Sent) (value : Json) : Prop where
  won : (store.after front).reply winner = .ok value
  earlier : ∀ before other after fields, front = before ++ other :: after →
    Creates name key other fields →
      ∃ cause, (store.after before).reply other = .error (.attribute cause)
  later : ∀ before other after fields, back = before ++ other :: after →
    Creates name key other fields →
      (store.after (front ++ winner :: before)).reply other = .error .conditionFailed
  read : ∀ request fields, request.Valid → operation? request = some .getItem →
    KeyedRequest.ofJson? request = some fields → SameKey fields.key key →
      (store.after (front ++ winner :: back)).reply (name, request) = .ok value

/-- The first creation whose item has a plain form wins, unless something else writes the key. -/
theorem Built.first_wins (built : Built store) (formed : WellFormed key)
    (absent : (store.table name).find? key = none) {front back : List Sent} {winner : Sent}
    (valid : ∀ sent ∈ front ++ winner :: back, sent.2.Valid)
    (undeleted : ∀ sent ∈ front ++ winner :: back, ¬ Deletes name key sent)
    (only : store.Through (OnlyCreates name key) (front ++ winner :: back))
    {fields : KeyedRequest} (creates : Creates name key winner fields) {value : Json}
    (plain : plainItem fields.item = .ok value) (unreadable : Unreadable name key front) :
    store.WonBy name key front winner back value := by
  obtain ⟨validFront, validRest⟩ := List.forall_mem_append.mp valid
  obtain ⟨validWinner, validBack⟩ := List.forall_mem_cons.mp validRest
  obtain ⟨_, undeletedRest⟩ := List.forall_mem_append.mp undeleted
  obtain ⟨_, undeletedBack⟩ := List.forall_mem_cons.mp undeletedRest
  obtain ⟨onlyFront, _, onlyBack⟩ := Store.through_append.mp only
  have builtFront := built.after validFront
  have none := (built.find_after formed validFront onlyFront (.inr unreadable)).trans absent
  obtain ⟨won, stored⟩ := creates.accepted formed validWinner none plain
  refine ⟨won, ?earlier, ?later, ?read⟩
  case earlier =>
    rintro before other after fields' rfl creates'
    obtain ⟨validBefore, validOthers⟩ := List.forall_mem_append.mp validFront
    obtain ⟨unreadableBefore, unreadableOthers⟩ := List.forall_mem_append.mp unreadable
    exact built.fails_before formed absent validBefore (validOthers other List.mem_cons_self)
      (Store.through_append.mp onlyFront).1 unreadableBefore creates'
      (unreadableOthers other List.mem_cons_self fields' creates')
  case later =>
    rintro before other after fields' rfl creates'
    obtain ⟨validBefore, validOthers⟩ := List.forall_mem_append.mp validBack
    obtain ⟨undeletedBefore, _⟩ := List.forall_mem_append.mp undeletedBack
    rw [Store.after_append]
    exact builtFront.second_fails formed validWinner validBefore
      (validOthers other List.mem_cons_self) undeletedBefore creates creates' won
  case read =>
    intro request fields' validRequest named read same
    have formed' := KeyedRequest.key_formed validRequest read
    have builtWinner : Built ((store.after front).step winner) :=
      builtFront.request winner.1 validWinner
    have has : ((store.after front).step winner).Has name (keyText key) := by
      rw [Store.Has, ← Contents.find?, stored]
      exact Option.some_ne_none _
    have found := (builtWinner.find_after formed validBack onlyBack (.inl has)).trans stored
    rw [Store.reply, execute_getItem _ name named read, Store.after_append, Contents.find?,
      (keyText_eq_iff formed' formed).mpr same, ← Contents.find?]
    exact (congrArg Table.plain found).trans plain

/-- **An item is created once.** Of the puts that create a key at most one succeeds in any sequence
of requests, whoever sends them, that does not delete the key. If there is no item at the start and
nothing else writes the key, it is the first one whose item has a plain form; the others in front of
it fail for their items and those behind it for their condition, and the item of the first is read
in the end. -/
theorem Built.created_once (built : Built store) (formed : WellFormed key) {requests : List Sent}
    (valid : ∀ sent ∈ requests, sent.2.Valid)
    (undeleted : ∀ sent ∈ requests, ¬ Deletes name key sent) :
    (∀ front first middle second back fields fields' value,
      requests = front ++ first :: (middle ++ second :: back) →
      Creates name key first fields → Creates name key second fields' →
      (store.after front).reply first = .ok value →
        (store.after (front ++ first :: middle)).reply second = .error .conditionFailed) ∧
    ((store.table name).find? key = none → store.Through (OnlyCreates name key) requests →
      ∀ front winner back fields value, requests = front ++ winner :: back →
        Creates name key winner fields → plainItem fields.item = .ok value →
        Unreadable name key front → store.WonBy name key front winner back value) := by
  constructor
  · rintro front first middle second back fields fields' value rfl creates creates' done
    obtain ⟨validFront, validRest⟩ := List.forall_mem_append.mp valid
    obtain ⟨validFirst, validRest⟩ := List.forall_mem_cons.mp validRest
    obtain ⟨validMiddle, validRest⟩ := List.forall_mem_append.mp validRest
    obtain ⟨_, undeletedRest⟩ := List.forall_mem_append.mp undeleted
    obtain ⟨_, undeletedRest⟩ := List.forall_mem_cons.mp undeletedRest
    obtain ⟨undeletedMiddle, _⟩ := List.forall_mem_append.mp undeletedRest
    rw [Store.after_append]
    exact (built.after validFront).second_fails formed validFirst validMiddle
      (validRest second List.mem_cons_self) undeletedMiddle creates creates' done
  · rintro absent only front winner back fields value rfl creates plain unreadable
    exact built.first_wins formed absent valid undeleted only creates plain unreadable

end

/-! ### Three creations of an item -/

namespace Owned

/-- The key of the item. -/
def key : Item := [("id", Attribute.tagged "S" (.string "1"))]

/-- A put of the item with an owner, on condition that the item lacks its key. -/
def creation (type owner : String) : Json :=
  .object
    [("operation", .string "PutItem"), ("key", .object key),
      ("attributeValues", .object [("owner", Attribute.tagged type (.string owner))]),
      ("condition", .object [("expression", .string "attribute_not_exists(id)")])]

/-- The fields of that put. -/
def fields (type owner : String) : KeyedRequest where
  key := key
  attributes := [("owner", Attribute.tagged type (.string owner))]
  condition := some { text := "attribute_not_exists(id)" }

/-- A request for the item. -/
def get : Json := .object [("operation", .string "GetItem"), ("key", .object key)]

/-- The requests: the first owner has no known type. -/
def requests : List Sent :=
  [("posts", creation "T" "a"), ("posts", creation "S" "b"), ("posts", get),
    ("posts", creation "S" "c")]

theorem creates (type owner : String) :
    Creates "posts" key ("posts", creation type owner) (fields type owner) where
  table := rfl
  named := rfl
  read := rfl
  same := fun _ => rfl
  absent := by
    have parsed : Expression.condition { text := "attribute_not_exists(id)" } =
        .ok (.absent "id") := Expression.condition_of_test (by rfl) rfl (by rfl)
    exact ⟨_, "id", rfl, parsed, List.mem_singleton_self _⟩

theorem formed : WellFormed key := by
  refine ⟨?_, ?_⟩ <;> simp [key, Attribute.tagged, Dict.keys, Json.Valid, Json.FieldsValid]

theorem valid : ∀ sent ∈ requests, sent.2.Valid := by
  simp [requests, creation, get, key, Attribute.tagged, Dict.keys, Json.Valid, Json.FieldsValid]

theorem undeleted : ∀ sent ∈ requests, ¬ Deletes "posts" key sent := by
  have creation (type owner : String) : ¬ Deletes "posts" key ("posts", creation type owner) :=
    not_deletes (creates type owner).named (by decide) (by decide)
  have get : ¬ Deletes "posts" key ("posts", get) :=
    not_deletes (show _ = some .getItem from rfl) (by decide) (by decide)
  simp [requests, creation, get]

theorem only : Store.Through (OnlyCreates "posts" key) [] requests := by
  refine ⟨.inl ⟨_, creates _ _⟩, .inl ⟨_, creates _ _⟩, .inr ?_, .inl ⟨_, creates _ _⟩, trivial⟩
  rw [Store.step, execute_getItem _ "posts" rfl rfl]

/-- The item of the second creation. -/
def answer : Json := .object [("owner", .string "b"), ("id", .string "1")]

/-- **The second creation wins**: the item of the first has no plain form. -/
theorem second_wins :
    (∀ sent ∈ requests, sent.2.Valid) ∧ (∀ sent ∈ requests, ¬ Deletes "posts" key sent) ∧
      Store.Through (OnlyCreates "posts" key) [] requests ∧
      Store.reply (Store.after [] [("posts", creation "T" "a")]) ("posts", creation "S" "b") =
        .ok answer ∧
      Store.reply (Store.after [] [("posts", creation "T" "a"), ("posts", creation "S" "b"),
        ("posts", get)]) ("posts", creation "S" "c") = .error .conditionFailed ∧
      Store.reply (Store.after [] requests) ("posts", get) = .ok answer := by
  obtain ⟨_, wins⟩ := Built.empty.created_once formed valid undeleted
  have misfit : plainItem (fields "T" "a").item =
      .error (.attribute (.value (Attribute.tagged "T" (.string "a")))) := rfl
  have unreadable : Unreadable "posts" key [("posts", creation "T" "a")] := by
    intro sent member fields' creates' value plain
    rw [List.mem_singleton.mp member] at creates'
    cases Option.some.inj (creates'.read.symm.trans (creates "T" "a").read)
    exact absurd (misfit.symm.trans plain) nofun
  obtain ⟨won, _, later, read⟩ := wins rfl only [("posts", creation "T" "a")]
    ("posts", creation "S" "b") [("posts", get), ("posts", creation "S" "c")] (fields "S" "b")
    answer rfl (creates _ _) rfl unreadable
  refine ⟨valid, undeleted, only, won, ?_, ?_⟩
  · exact later [("posts", get)] ("posts", creation "S" "c") [] (fields "S" "c") rfl (creates _ _)
  · have validGet := valid ("posts", get) (by simp [requests])
    exact read get { key := key } validGet rfl rfl fun _ => rfl

end Owned

end FieldResolver.Table
