/-
**Reads after any history.**

A history is a run of requests that succeed, together with what each of them did. After any history
a read of a key answers with the value that was answered when the key was last written, or with
`null` if it was never written or deleted since.

* `Remembers.table_run`, `Remembers.run`: effects keep what is stored in line with the history;
* `effects_formed`: valid requests write and delete under well-formed keys;
* `getItem_after`: what a read answers after a history.
-/

import FieldResolver.Proofs.Table.KeyText
import FieldResolver.Proofs.Table.Reached

namespace FieldResolver.Table

open Fallible

/-- The histories of requests that succeed, with the store that they lead to. -/
inductive History : Store → List Effect → Prop where
  | empty : History [] []
  | create {store : Store} {past : List Effect} (history : History store past) (name : String)
      (keyNames : List String) : History (store.createTable name keyNames) past
  | request {store : Store} {past : List Effect} (history : History store past) {name : String}
      {request answer : Json} (valid : request.Valid)
      (done : (store.execute name request).1 = .ok answer) :
      History (store.execute name request).2 (past ++ effects store name request answer)

/-- Whether an effect is on the item of a table with a key. -/
def Effect.Concerns (effect : Effect) (name : String) (key : Item) : Prop :=
  effect.table = name ∧ SameKey effect.key key

/-- Whether an effect is the last one of a history on the item with a key. -/
def Latest (past : List Effect) (name : String) (key : Item) (effect : Effect) : Prop :=
  ∃ before after, past = before ++ effect :: after ∧ effect.Concerns name key ∧
    ∀ later ∈ after, ¬ later.Concerns name key

theorem Latest.concerns {past : List Effect} {name : String} {key : Item} {effect : Effect}
    (latest : Latest past name key effect) : effect.Concerns name key := by
  obtain ⟨_, _, _, concerns, _⟩ := latest
  exact concerns

/-- What a history says about the item with a key. -/
inductive Recalls (past : List Effect) (name : String) (key : Item) : Json → Prop where
  | written {operation : Operation} {table : String} {written : Item} {value : Json}
      (latest : Latest past name key (.wrote operation table written value)) :
      Recalls past name key value
  | deleted {table : String} {gone : Item} (latest : Latest past name key (.deleted table gone)) :
      Recalls past name key .null
  | untouched (never : ∀ effect ∈ past, ¬ effect.Concerns name key) : Recalls past name key .null

/-- Whether an answer has the attributes of a key in their plain forms. What an operation stores is
the attribute itself; an update stores one that is the same as JSON. -/
def Exhibits (operation : Operation) (answer : Json) (key : Item) : Prop :=
  ∃ fields : Dict Json, answer = .object fields ∧
    ∀ name value, key.get? name = some value → ∃ found plain,
      fields.get? name = some plain ∧ Attribute.unmarshal found = .ok plain ∧
        (found = value ∨ operation = .updateItem ∧ found.same value = true)

/-! ### The last effect under a text -/

/-- Whether an effect is on what a table stores under a text. -/
def Effect.Under (name text : String) (effect : Effect) : Prop :=
  effect.table = name ∧ keyText effect.key = text

instance (name text : String) (effect : Effect) : Decidable (effect.Under name text) :=
  inferInstanceAs (Decidable (_ ∧ _))

/-- The last effect of a history on what a table stores under a text. -/
def lastUnder (past : List Effect) (name text : String) : Option Effect :=
  past.reverse.find? fun effect => effect.Under name text

theorem lastUnder_append (past new : List Effect) (name text : String) :
    lastUnder (past ++ new) name text =
      (lastUnder new name text).or (lastUnder past name text) := by
  rw [lastUnder, List.reverse_append, List.find?_append]
  rfl

theorem lastUnder_singleton (effect : Effect) (name text : String) :
    lastUnder [effect] name text = if effect.Under name text then some effect else none := by
  rw [lastUnder, List.reverse_singleton, List.find?_singleton]
  simp only [decide_eq_true_eq]

theorem lastUnder_eq_none {past : List Effect} {name text : String}
    (never : ∀ effect ∈ past, ¬ effect.Under name text) : lastUnder past name text = none := by
  rw [lastUnder, List.find?_eq_none]
  intro effect member
  rw [decide_eq_true_eq]
  exact never effect (List.mem_reverse.mp member)

/-- Where the last effect under a text stands in a history. -/
theorem lastUnder_eq_some {past : List Effect} {name text : String} {effect : Effect}
    (last : lastUnder past name text = some effect) :
    effect.Under name text ∧ ∃ before after, past = before ++ effect :: after ∧
      ∀ later ∈ after, ¬ later.Under name text := by
  obtain ⟨under, front, back, split, others⟩ := List.find?_eq_some_iff_append.mp last
  refine ⟨of_decide_eq_true under, back.reverse, front.reverse, ?_, fun later member => ?_⟩
  · rw [← List.reverse_reverse past, split]
    simp
  · have apart := others later (List.mem_reverse.mp member)
    simpa using apart

/-! ### What is stored and what the history says -/

/-- What is stored after an effect: nothing after a deletion, and an item with the plain form that
was answered after a write. -/
inductive Remembers : Option Effect → Option Item → Prop where
  | nothing : Remembers none none
  | deleted (table : String) (key : Item) : Remembers (some (.deleted table key)) none
  | wrote {operation : Operation} {table : String} {key item : Item} {value : Json}
      (plain : plainItem item = .ok value) (carries : Carries operation item key) :
      Remembers (some (.wrote operation table key value)) (some item)

/-- Effects on a table are on that table. -/
theorem Contents.Runs.table_eq {name : String} {table after : Contents} {effects : List Effect}
    (run : Contents.Runs name table effects after) : ∀ effect ∈ effects, effect.table = name := by
  induction run with
  | refl | declare => exact fun _ member => absurd member List.not_mem_nil
  | store | remove =>
    intro effect member
    rw [List.mem_singleton.mp member]
    rfl
  | append _ _ first second =>
    intro effect member
    exact (List.mem_append.mp member).elim (first effect) (second effect)

/-- Effects on a table keep what it stores in line with the history. -/
theorem Remembers.table_run {name : String} {table after : Contents} {effects : List Effect}
    (run : Contents.Runs name table effects after) (sound : table.Sound) (text : String)
    {before : Option Effect} (remembers : Remembers before (table.items.get? text)) :
    Remembers ((lastUnder effects name text).or before) (after.items.get? text) := by
  induction run generalizing before with
  | refl | declare => exact remembers
  | store table operation plain carries =>
    rename_i key item value
    rw [lastUnder_singleton, Contents.store, Index.get?_insert]
    by_cases here : keyText key = text
    · rw [if_pos ⟨rfl, here⟩, if_pos here]
      exact .wrote plain carries
    · rw [if_neg fun under => here under.2, if_neg here]
      exact remembers
  | remove table key =>
    rw [lastUnder_singleton, Contents.remove, Index.get?_erase sound.ordered]
    by_cases here : keyText key = text
    · rw [if_pos ⟨rfl, here⟩, if_pos here]
      exact .deleted name key
    · rw [if_neg fun under => here under.2, if_neg here]
      exact remembers
  | append firstRun _ first second =>
    rw [lastUnder_append, Option.or_assoc]
    exact second (firstRun.sound sound) (first sound remembers)

/-- Effects keep what is stored in line with the history. -/
theorem Remembers.run {store after : Store} {effects : List Effect} (run : Runs store effects after)
    (sound : store.Sound) (name text : String) {before : Option Effect}
    (remembers : Remembers before ((store.table name).items.get? text)) :
    Remembers ((lastUnder effects name text).or before) ((after.table name).items.get? text) := by
  induction run generalizing before with
  | refl => exact remembers
  | table other run others =>
    by_cases same : name = other
    · subst same
      exact remembers.table_run run (sound name) text
    · have elsewhere : lastUnder _ name text = none := lastUnder_eq_none
        fun effect member under => same (under.1.symm.trans (run.table_eq effect member))
      rw [elsewhere, others name same]
      exact remembers
  | append firstRun _ first second =>
    rw [lastUnder_append, Option.or_assoc]
    exact second (firstRun.sound sound) (first sound remembers)

section

variable {store : Store} {past : List Effect}

theorem History.reached (history : History store past) : Reached store := by
  induction history with
  | empty => exact .empty
  | create _ name keyNames ih => exact ih.create name keyNames
  | request _ _ _ ih => exact ih.request _ _

/-- What is stored is what the history says. -/
theorem History.remembers (history : History store past) (name text : String) :
    Remembers (lastUnder past name text) ((store.table name).items.get? text) := by
  induction history with
  | empty => exact .nothing
  | create history other keyNames ih =>
    exact ih.run (createTable_runs _ other keyNames) history.reached.sound name text
  | request history valid done ih =>
    obtain ⟨effects, run, all⟩ := execute_runs _ _ _
    rw [lastUnder_append, ← all _ done]
    exact ih.run run history.reached.sound name text

end

/-! ### Keys of effects -/

/-- A key that is read from a valid value is well-formed. -/
theorem wellFormed_of_fields? {value : Json} {item : Item} (valid : value.Valid)
    (read : Json.fields? value = some item) : WellFormed item :=
  ⟨Json.fields?_distinct read, Json.fields?_valid valid read⟩

/-- The key of a valid request is well-formed. -/
theorem KeyedRequest.key_formed {request : Json} {fields : KeyedRequest} (valid : request.Valid)
    (read : KeyedRequest.ofJson? request = some fields) : WellFormed fields.key := by
  obtain ⟨record, made, read⟩ := Option.bind_eq_some_iff.mp read
  obtain ⟨key, given, read⟩ := Option.bind_eq_some_iff.mp read
  obtain ⟨_, _, read⟩ := Option.bind_eq_some_iff.mp read
  obtain ⟨_, _, read⟩ := Option.bind_eq_some_iff.mp read
  obtain ⟨_, _, read⟩ := Option.bind_eq_some_iff.mp read
  cases read
  obtain ⟨value, found, given⟩ := Json.Record.of_required given
  exact wellFormed_of_fields? (Json.Record.valid_of_get? valid made found) given

/-- The items of a valid request are well-formed. -/
theorem BatchRequest.items_formed {request : Json} {tables : BatchRequest} (valid : request.Valid)
    (read : BatchRequest.ofJson? items? request = some tables) :
    ∀ entry ∈ tables, ∀ item ∈ entry.2, WellFormed item := by
  obtain ⟨record, made, read⟩ := Option.bind_eq_some_iff.mp read
  obtain ⟨entries, given, rfl⟩ := Option.map_eq_some_iff.mp read
  obtain ⟨value, found, given⟩ := Json.Record.of_required given
  have all := Json.of_dictOf? (Json.Record.valid_of_get? valid made found) given
  intro entry member item inItems
  obtain ⟨field, validField, items⟩ := all entry (Index.mem_of_mem_ofEntries member)
  obtain ⟨one, validOne, fields⟩ := Json.of_listOf? validField items item inItems
  exact wellFormed_of_fields? validOne fields

/-- The key that a table reads off a well-formed item is well-formed. -/
theorem WellFormed.keyOf {table : Contents} {item key : Item} (formed : WellFormed item)
    (read : table.keyOf item = .ok key) : WellFormed key := by
  refine keyOf_keeps read WellFormed ⟨List.nodup_nil, trivial⟩ ?_
  intro before name value found holds
  refine ⟨Dict.keys_insert_nodup holds.distinct name value, Json.fieldsValid_iff.mpr ?_⟩
  intro field member
  rcases Dict.mem_insert member with rfl | inBefore
  · exact formed.valid.get? found
  · exact Json.fieldsValid_iff.mp holds.valid field inBefore

/-- Valid requests write and delete under well-formed keys. -/
theorem effects_formed {store : Store} {name : String} {request answer : Json}
    (valid : request.Valid) :
    ∀ effect ∈ effects store name request answer, WellFormed effect.key := by
  intro effect member
  obtain ⟨operation, _, member⟩ := List.mem_flatMap.mp member
  cases operation with
  | getItem | query | scan | batchGetItem => exact absurd member List.not_mem_nil
  | putItem | updateItem | deleteItem =>
    obtain ⟨fields, given, rfl⟩ := List.mem_map.mp member
    exact KeyedRequest.key_formed valid (Option.mem_toList.mp given)
  | batchPutItem =>
    obtain ⟨tables, given, member⟩ := List.mem_flatMap.mp member
    obtain ⟨⟨table, items⟩, inTables, member⟩ := List.mem_flatMap.mp member
    obtain ⟨⟨item, value⟩, zipped, made⟩ := List.mem_filterMap.mp member
    obtain ⟨key, read, rfl⟩ := Option.map_eq_some_iff.mp made
    have formed := BatchRequest.items_formed valid (Option.mem_toList.mp given) _ inTables item
      (List.of_mem_zip zipped).1
    exact formed.keyOf (toOption_ok read)
  | batchDeleteItem =>
    obtain ⟨tables, given, member⟩ := List.mem_flatMap.mp member
    obtain ⟨⟨table, keys⟩, inTables, member⟩ := List.mem_flatMap.mp member
    obtain ⟨key, inKeys, rfl⟩ := List.mem_map.mp member
    exact BatchRequest.items_formed valid (Option.mem_toList.mp given) _ inTables key inKeys

theorem History.formed {store : Store} {past : List Effect} (history : History store past) :
    ∀ effect ∈ past, WellFormed effect.key := by
  induction history with
  | empty => exact fun _ member => absurd member List.not_mem_nil
  | create _ _ _ ih => exact ih
  | request _ valid _ ih =>
    intro effect member
    exact (List.mem_append.mp member).elim (ih effect) (effects_formed valid effect)

/-! ### Reads -/

section

variable {store : Store} {past : List Effect} {name : String} {key : Item}

/-- Under well-formed keys, an effect is under the text of a key if it is on its item. -/
theorem Effect.under_iff {effect : Effect} (formed : WellFormed effect.key)
    (formedKey : WellFormed key) :
    effect.Under name (keyText key) ↔ effect.Concerns name key :=
  and_congr_right fun _ => keyText_eq_iff formed formedKey

/-- What is the last effect under the text of a key is the latest one on its item. -/
theorem latest_of_lastUnder (formed : ∀ effect ∈ past, WellFormed effect.key)
    (formedKey : WellFormed key) {effect : Effect}
    (last : lastUnder past name (keyText key) = some effect) : Latest past name key effect := by
  obtain ⟨under, before, after, rfl, others⟩ := lastUnder_eq_some last
  refine ⟨before, after, rfl, (Effect.under_iff (formed _ (by simp)) formedKey).mp under, ?_⟩
  intro later member concerns
  exact others later member
    ((Effect.under_iff (formed _ (by simp [member])) formedKey).mpr concerns)

/-- Where there is no effect under the text of a key, there is none on its item. -/
theorem untouched_of_lastUnder (formed : ∀ effect ∈ past, WellFormed effect.key)
    (formedKey : WellFormed key) (none : lastUnder past name (keyText key) = none) :
    ∀ effect ∈ past, ¬ effect.Concerns name key := by
  intro effect member concerns
  have apart := List.find?_eq_none.mp none effect (List.mem_reverse.mpr member)
  rw [decide_eq_true_eq] at apart
  exact apart ((Effect.under_iff (formed effect member) formedKey).mpr concerns)

/-- The plain form of an item has the plain forms of its attributes. -/
theorem unmarshalFields_get? {item : Item} {fields : Dict Json}
    (plain : Attribute.unmarshalFields item = .ok fields) {label : String} {found : Json}
    (given : item.get? label = some found) :
    ∃ value, fields.get? label = some value ∧ Attribute.unmarshal found = .ok value := by
  induction item generalizing fields with
  | nil => cases given
  | cons entry rest ih =>
    obtain ⟨first, here⟩ := entry
    obtain ⟨value, read, plain⟩ := bind_ok plain
    obtain ⟨others, below, same⟩ := bind_ok plain
    cases same
    rw [Dict.get?_cons] at given ⊢
    split at given
    · rename_i same
      cases given
      rw [if_pos same]
      exact ⟨value, rfl, read⟩
    · rename_i different
      rw [if_neg different]
      exact ih below given

/-- The plain form of an item that carries a key exhibits the key. -/
theorem Carries.exhibits {operation : Operation} {item written : Item} {value : Json}
    (carries : Carries operation item written) (plain : plainItem item = .ok value)
    (same : SameKey written key) : Exhibits operation value key := by
  obtain ⟨fields, read, rfl⟩ := map_ok (mapError_ok plain)
  refine ⟨fields, rfl, fun label given isGiven => ?_⟩
  obtain ⟨found, stored, equal⟩ := carries label given ((same label).trans isGiven)
  obtain ⟨shown, inFields, unmarshalled⟩ := unmarshalFields_get? read stored
  exact ⟨found, shown, inFields, unmarshalled, equal⟩

/-- What an effect leaves to read. -/
def Effect.answer (last : Option Effect) : Json := (last.bind Effect.value?).getD .null

/-- What a read answers after a history, by the text of its key. -/
theorem History.find (history : History store past) (name : String) (key : Item) :
    plain ((store.table name).find? key) =
      .ok (Effect.answer (lastUnder past name (keyText key))) := by
  have remembers := history.remembers name (keyText key)
  rw [Contents.find?]
  revert remembers
  generalize lastUnder past name (keyText key) = last
  generalize (store.table name).items.get? (keyText key) = found
  intro remembers
  cases remembers with
  | nothing | deleted => rfl
  | wrote plain _ => exact plain

/-- A read answers with the item that has the key and leaves the store alone. -/
theorem execute_getItem (store : Store) (name : String) {request : Json} {fields : KeyedRequest}
    (operation : operation? request = some .getItem)
    (read : KeyedRequest.ofJson? request = some fields) :
    store.execute name request = (plain ((store.table name).find? fields.key), store) := by
  obtain ⟨text, named, operation⟩ := Option.bind_eq_some_iff.mp operation
  rw [Store.execute, named]
  simp only [operation]
  show store.andThen (Store.fieldsOf .getItem request KeyedRequest.ofJson?) _ = _
  rw [Store.fieldsOf, read]
  rfl

/-- What a history says about a key is what the last effect under its text leaves to read. -/
theorem History.recalls (history : History store past) (formedKey : WellFormed key) :
    Recalls past name key (Effect.answer (lastUnder past name (keyText key))) := by
  cases last : lastUnder past name (keyText key) with
  | none => exact .untouched (untouched_of_lastUnder history.formed formedKey last)
  | some effect =>
    have latest := latest_of_lastUnder history.formed formedKey last
    cases effect with
    | wrote operation table written value => exact .written latest
    | deleted table gone => exact .deleted latest

/-- **A read after any history of requests that succeed** answers with the value of the last write
of its key, or `null` if there is none or the key was deleted since. Keys are the same if they have
the same attributes with the same values, effects on other keys and tables do not matter, and an
answer that is not `null` exhibits the key. -/
theorem getItem_after (history : History store past) {request : Json} {fields : KeyedRequest}
    (valid : request.Valid) (operation : operation? request = some .getItem)
    (read : KeyedRequest.ofJson? request = some fields) :
    ∃ answer, store.execute name request = (.ok answer, store) ∧
      Recalls past name fields.key answer ∧
      (answer ≠ .null → ∃ operation table written,
        Latest past name fields.key (.wrote operation table written answer) ∧
          Exhibits operation answer fields.key) ∧
      (∀ table keyNames,
        ((store.createTable table keyNames).execute name request).1 = .ok answer) ∧
      (∀ (table : String) (other result : Json), other.Valid →
        (store.execute table other).1 = .ok result →
        (∀ effect ∈ effects store table other result, ¬ effect.Concerns name fields.key) →
          ((store.execute table other).2.execute name request).1 = .ok answer) ∧
      ∀ key, WellFormed key → (keyText key = keyText fields.key ↔ SameKey key fields.key) := by
  have formed := KeyedRequest.key_formed valid read
  have answers : ∀ {store past}, History store past → store.execute name request =
      (.ok (Effect.answer (lastUnder past name (keyText fields.key))), store) := by
    intro store past history
    rw [execute_getItem store name operation read, history.find]
  refine ⟨_, answers history, history.recalls formed, ?shown, ?created, ?elsewhere,
    fun key formedKey => keyText_eq_iff formedKey formed⟩
  case shown =>
    intro shown
    have remembers := history.remembers name (keyText fields.key)
    revert shown remembers
    cases last : lastUnder past name (keyText fields.key) with
    | none => exact fun shown => absurd rfl shown
    | some effect =>
      have latest := latest_of_lastUnder history.formed formed last
      intro shown remembers
      generalize (store.table name).items.get? (keyText fields.key) = found at remembers
      cases remembers with
      | deleted => exact absurd rfl shown
      | wrote plain carries =>
        exact ⟨_, _, _, latest, carries.exhibits plain latest.concerns.2⟩
  case created =>
    intro table keyNames
    rw [answers (history.create table keyNames)]
  case elsewhere =>
    intro table other result validOther done apart
    have quiet : lastUnder (effects store table other result) name (keyText fields.key) = none :=
      lastUnder_eq_none fun effect member under => apart effect member
        ((Effect.under_iff (effects_formed validOther effect member) formed).mp under)
    rw [answers (history.request validOther done), lastUnder_append, quiet]
    rfl

end

/-! ### An update of a key attribute -/

namespace Reordered

/-- A map of two texts. -/
def pair (first second : String × String) : Json :=
  Attribute.tagged "M" (.object
    [(first.1, Attribute.tagged "S" (.string first.2)),
      (second.1, Attribute.tagged "S" (.string second.2))])

/-- The value of the key attribute. -/
def given : Json := pair ("a", "1") ("b", "2")

/-- An update that stores the key attribute with its fields in the other order. -/
def update : Json :=
  .object
    [("operation", .string "UpdateItem"), ("key", .object [("id", given)]),
      ("update", .object
        [("expression", .string "SET id = :v"),
          ("expressionValues", .object [(":v", pair ("b", "2") ("a", "1"))])])]

/-- A read of the key. -/
def read : Json := .object [("operation", .string "GetItem"), ("key", .object [("id", given)])]

/-- What both requests answer. -/
def answer : Json := .object [("id", .object [("b", .string "2"), ("a", .string "1")])]

/-- The store after the update. -/
def store : Store := (Store.execute [] "posts" update).2

theorem valid : update.Valid ∧ read.Valid := by
  simp [update, read, given, pair, Attribute.tagged, Json.Valid, Json.FieldsValid, Dict.keys]

theorem history : History store ([] ++ effects [] "posts" update answer) :=
  .request .empty valid.1 rfl

/-- **The answer to the read does not have the key attribute as the key gives it.** -/
theorem read_not_exact :
    History store ([] ++ effects [] "posts" update answer) ∧
      store.execute "posts" read = (.ok answer, store) ∧
      KeyedRequest.ofJson? read = some { key := [("id", given)] } ∧
      Attribute.unmarshal given = .ok (.object [("a", .string "1"), ("b", .string "2")]) ∧
      answer.field? "id" ≠ some (.object [("a", .string "1"), ("b", .string "2")]) := by
  refine ⟨history, rfl, rfl, rfl, ?_⟩
  simp [answer, Json.field?, Json.object?, Dict.get?]

/-- It is what the update answered, and the same as JSON. -/
theorem read_after_update :
    Recalls ([] ++ effects [] "posts" update answer) "posts" [("id", given)] answer ∧
      ∃ operation, Exhibits operation answer [("id", given)] := by
  have reads : store.execute "posts" read = (.ok answer, store) := rfl
  obtain ⟨shown, answers, recalls, exhibits, _⟩ := getItem_after history valid.2 rfl rfl
  rw [reads] at answers
  cases answers
  obtain ⟨operation, _, _, _, exhibited⟩ := exhibits (by simp [answer])
  exact ⟨recalls, operation, exhibited⟩

end Reordered

end FieldResolver.Table
