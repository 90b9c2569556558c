/-
**Indices and tables as look-ups.**

What writing and removing an entry does to every look-up, in indices and in the tables of a store.

* `Index.Ascending`: the order that indices keep, with `ascending_insert` and `ascending_erase`;
* `Index.get?_erase_self`, `Index.get?_erase_of_ne`: a removed key is gone and the others stay;
* `Store.table_insert`: a table written back is the only one that changes;
* `Store.Agree`: stores with the same tables, with `deleteItem_of_ok` and `batchDelete_cons`:
  deleting from a table that does not exist is deleting from an empty one.
-/

import FieldResolver.Proofs.Dict
import FieldResolver.Table.Store
import Mathlib.Data.String.Basic

namespace FieldResolver

namespace Table

namespace Index

variable {α : Type}

/-- Whether the keys of an index ascend. -/
def Ascending (index : Index α) : Prop := (index.map Prod.fst).Pairwise (· < ·)

theorem ascending_nil : Ascending ([] : Index α) := List.Pairwise.nil

theorem ascending_cons {key : String} {value : α} {rest : Index α} :
    Ascending ((key, value) :: rest) ↔ (∀ entry ∈ rest, key < entry.1) ∧ Ascending rest := by
  rw [Ascending, List.map_cons, List.pairwise_cons, List.forall_mem_map]
  rfl

/-- An entry after a write is the one written or was there before. -/
theorem mem_insert {index : Index α} {key : String} {value : α} {entry : String × α}
    (member : entry ∈ insert index key value) : entry = (key, value) ∨ entry ∈ index := by
  induction index with
  | nil => exact .inl (List.mem_singleton.mp member)
  | cons head rest ih =>
    obtain ⟨k, v⟩ := head
    rw [insert] at member
    split at member
    · rcases List.mem_cons.mp member with here | inRest
      · exact .inl here
      · exact .inr (List.mem_cons_of_mem _ inRest)
    · split at member
      · exact List.mem_cons.mp member
      · rcases List.mem_cons.mp member with here | inRest
        · exact .inr (here ▸ List.mem_cons_self)
        · exact (ih inRest).imp_right (List.mem_cons_of_mem _)

/-- Removing a key adds no entry. -/
theorem mem_of_mem_erase {index : Index α} {key : String} {entry : String × α}
    (member : entry ∈ erase index key) : entry ∈ index := by
  induction index with
  | nil => exact member
  | cons head rest ih =>
    obtain ⟨k, v⟩ := head
    rw [erase] at member
    split at member
    · exact List.mem_cons_of_mem _ member
    · rcases List.mem_cons.mp member with here | inRest
      · exact here ▸ List.mem_cons_self
      · exact List.mem_cons_of_mem _ (ih inRest)

/-- Writing keeps the order of the keys. -/
theorem ascending_insert {index : Index α} (ascending : Ascending index) (key : String)
    (value : α) : Ascending (insert index key value) := by
  induction index with
  | nil => exact List.pairwise_singleton _ _
  | cons head rest ih =>
    obtain ⟨k, v⟩ := head
    obtain ⟨first, below⟩ := ascending_cons.mp ascending
    rw [insert]
    split
    · rename_i same
      subst same
      exact ascending_cons.mpr ⟨first, below⟩
    · rename_i different
      split
      · rename_i before
        refine ascending_cons.mpr ⟨fun entry member => ?_, ascending⟩
        rcases List.mem_cons.mp member with rfl | inRest
        · exact before
        · exact lt_trans before (first entry inRest)
      · rename_i notBefore
        have after : k < key := lt_of_le_of_ne (not_lt.mp notBefore) different
        refine ascending_cons.mpr ⟨fun entry member => ?_, ih below⟩
        rcases mem_insert member with rfl | inRest
        · exact after
        · exact first entry inRest

/-- Removing a key keeps the order of the others. -/
theorem ascending_erase {index : Index α} (ascending : Ascending index) (key : String) :
    Ascending (erase index key) := by
  induction index with
  | nil => exact ascending_nil
  | cons head rest ih =>
    obtain ⟨k, v⟩ := head
    obtain ⟨first, below⟩ := ascending_cons.mp ascending
    rw [erase]
    split
    · exact below
    · exact ascending_cons.mpr ⟨fun entry member => first entry (mem_of_mem_erase member), ih below⟩

theorem ascending_ofEntries (entries : List (String × α)) : Ascending (ofEntries entries) := by
  suffices general : ∀ index : Index α, Ascending index →
      Ascending (entries.foldl (fun index entry => insert index entry.1 entry.2) index) from
    general [] ascending_nil
  induction entries with
  | nil => exact fun _ ascending => ascending
  | cons entry rest ih => exact fun _ ascending => ih _ (ascending_insert ascending _ _)

/-- There is an index of no entries only. -/
theorem ofEntries_eq_nil {entries : List (String × α)} : ofEntries entries = [] ↔ entries = [] := by
  have inserted : ∀ (index : Index α) key value, insert index key value ≠ [] := by
    intro index key value empty
    have read := get?_insert_self index key value
    rw [empty] at read
    cases read
  have filled : ∀ (entries : List (String × α)) (index : Index α), index ≠ [] →
      entries.foldl (fun index entry => insert index entry.1 entry.2) index ≠ [] := by
    intro entries
    induction entries with
    | nil => exact fun _ filled => filled
    | cons entry rest ih => exact fun index _ => ih _ (inserted index _ _)
  constructor
  · intro empty
    cases entries with
    | nil => rfl
    | cons entry rest => exact absurd empty (filled rest _ (inserted [] _ _))
  · rintro rfl
    rfl

/-- What is read after a write. -/
theorem get?_insert (index : Index α) (key other : String) (value : α) :
    get? (insert index key value) other = if key = other then some value else get? index other := by
  split
  · rename_i same
    rw [← same]
    exact get?_insert_self index key value
  · exact get?_insert_of_ne index value ‹_›

/-- A key below all others is not there. -/
theorem get?_eq_none_of_lt {index : Index α} {key : String}
    (below : ∀ entry ∈ index, key < entry.1) : get? index key = none := by
  induction index with
  | nil => rfl
  | cons head rest ih =>
    obtain ⟨k, v⟩ := head
    rw [get?, if_neg (ne_of_gt (below _ List.mem_cons_self))]
    exact ih fun entry member => below entry (List.mem_cons_of_mem _ member)

/-- A removed key is gone. -/
theorem get?_erase_self {index : Index α} (ascending : Ascending index) (key : String) :
    get? (erase index key) key = none := by
  induction index with
  | nil => rfl
  | cons head rest ih =>
    obtain ⟨k, v⟩ := head
    obtain ⟨first, below⟩ := ascending_cons.mp ascending
    rw [erase]
    split
    · rename_i same
      exact get?_eq_none_of_lt (same ▸ first)
    · rename_i different
      rw [get?, if_neg different]
      exact ih below

/-- Removing a key leaves the others alone. -/
theorem get?_erase_of_ne (index : Index α) {key other : String} (different : key ≠ other) :
    get? (erase index key) other = get? index other := by
  induction index with
  | nil => rfl
  | cons head rest ih =>
    obtain ⟨k, v⟩ := head
    rw [erase]
    split
    · rename_i same
      rw [get?, if_neg (same ▸ different)]
    · rw [get?, get?, ih]

/-- What is read after a removal. -/
theorem get?_erase {index : Index α} (ascending : Ascending index) (key other : String) :
    get? (erase index key) other = if key = other then none else get? index other := by
  split
  · rename_i same
    rw [← same]
    exact get?_erase_self ascending key
  · exact get?_erase_of_ne index ‹_›

/-- A value that is read stands in an entry. -/
theorem mem_of_get? {index : Index α} {key : String} {value : α}
    (found : get? index key = some value) : (key, value) ∈ index := by
  induction index with
  | nil => cases found
  | cons head rest ih =>
    obtain ⟨k, v⟩ := head
    rw [get?] at found
    split at found
    · rename_i same
      cases same
      cases found
      exact List.mem_cons_self
    · exact List.mem_cons_of_mem _ (ih found)

end Index

namespace Store

/-- A table written back is the only one that changes. -/
theorem table_insert (store : Store) (name other : String) (table : Contents) :
    Store.table (Dict.insert store name table) other =
      if name = other then table else store.table other := by
  unfold Store.table
  rw [Dict.get?_insert]
  split <;> rfl

/-- Whether two stores have the same tables; one that does not exist is empty. -/
def Agree (first second : Store) : Prop := ∀ name, first.table name = second.table name

theorem Agree.insert {first second : Store} (agree : Agree first second) (name : String)
    (table : Contents) : Agree (Dict.insert first name table) (Dict.insert second name table) := by
  intro other
  rw [table_insert, table_insert, agree other]

/-- Writing a table back as it is changes none. -/
theorem agree_insert_table (store : Store) (name : String) :
    Agree (Dict.insert store name (store.table name)) store := by
  intro other
  rw [table_insert]
  split
  · rename_i same
    rw [same]
  · rfl

/-- There is nothing to remove from an empty table. -/
theorem removeAll_empty (keys : List Item) :
    removeAll {} keys = (.ok (keys.map fun _ => .null), {}) := by
  induction keys with
  | nil => rfl
  | cons key rest ih =>
    have empty : Contents.remove {} key = {} := rfl
    rw [removeAll]
    show (((removeAll (Contents.remove {} key) rest).1).map (Json.null :: ·),
      (removeAll (Contents.remove {} key) rest).2) = _
    rw [empty, ih]
    rfl

/-- A deletion whose condition fails leaves the store alone. -/
theorem deleteItem_of_error {store : Store} {name : String} {request : KeyedRequest}
    {failure : Failure}
    (failed : checkCondition request.condition ((store.table name).find? request.key) =
      .error failure) : store.deleteItem name request = (.error failure, store) := by
  rw [deleteItem]
  cases found : store.get? name with
  | none =>
    have empty : store.table name = {} := by rw [Store.table, found]; rfl
    rw [empty] at failed
    have unmet : checkCondition request.condition none = .error failure := failed
    simp only [unmet]
    rfl
  | some table =>
    have same : store.table name = table := by rw [Store.table, found]; rfl
    rw [same] at failed
    simp only [failed]

/-- A deletion whose condition holds removes the key, whether or not its table exists. -/
theorem deleteItem_of_ok {store : Store} {name : String} {request : KeyedRequest}
    (holds : checkCondition request.condition ((store.table name).find? request.key) = .ok ()) :
    ∃ after, store.deleteItem name request =
        (plain ((store.table name).find? request.key), after) ∧
      Agree after (Dict.insert store name ((store.table name).remove request.key)) := by
  rw [deleteItem]
  cases found : store.get? name with
  | none =>
    have empty : store.table name = {} := by rw [Store.table, found]; rfl
    rw [empty] at holds ⊢
    have met : checkCondition request.condition none = .ok () := holds
    refine ⟨store, ?_, fun other => ?_⟩
    · simp only [met]
      rfl
    · have written := agree_insert_table store name other
      rw [empty] at written
      exact written.symm
  | some table =>
    have same : store.table name = table := by rw [Store.table, found]; rfl
    rw [same] at holds ⊢
    simp only [holds]
    exact ⟨_, rfl, fun _ => rfl⟩

/-- What the first table of a batch of deletions comes to, whether or not it exists. -/
theorem batchDelete_cons (store : Store) (name : String) (keys : List Item) (rest : BatchRequest) :
    ∃ middle, Agree middle (Dict.insert store name (removeAll (store.table name) keys).2) ∧
      store.batchDelete ((name, keys) :: rest) =
        match (removeAll (store.table name) keys).1 with
        | .error failure => (.error failure, middle)
        | .ok values =>
          (((middle.batchDelete rest).1).map ((name, .array values) :: ·),
            (middle.batchDelete rest).2) := by
  rw [batchDelete]
  cases found : store.get? name with
  | none =>
    have empty : store.table name = {} := by rw [Store.table, found]; rfl
    refine ⟨store, fun other => ?_, ?_⟩
    · have written := agree_insert_table store name other
      rw [empty] at written
      rw [empty, removeAll_empty]
      exact written.symm
    · rw [empty, removeAll_empty]
  | some table =>
    have same : store.table name = table := by rw [Store.table, found]; rfl
    rw [same]
    exact ⟨_, fun _ => rfl, rfl⟩

end Store

end Table

end FieldResolver
