/-
**Dictionaries as look-ups.**

What writing entries does to every look-up and to the entries and keys there are.

* `get?_insert`, `get?_insertAll`: what is read after writes;
* `mem_of_get?`, `get?_of_mem`: what is read stands in an entry, and the entries of distinct keys are
  read;
* `get?_of_perm`: what is read does not depend on the order of distinct keys;
* `get?_erase_self`, `get?_erase_of_ne`: a removed key is gone and the others stay;
* `insert_of_get?`, `insert_insert`: writes that change nothing or are written over;
* `keys_insert_nodup`, `keys_ofEntries_nodup`: writing keeps keys distinct;
* `ofEntries_of_distinct`: entries with distinct keys are a dictionary as they are;
* `get?_append`, `keys_append`: one dictionary behind another.
-/

import FieldResolver.Dict
import Mathlib.Data.List.Nodup

namespace FieldResolver

namespace Dict

variable {α : Type}

/-- What is read after a write. -/
theorem get?_insert (dict : Dict α) (key other : String) (value : α) :
    get? (insert dict key value) other = if key = other then some value else get? dict other := by
  split
  · rename_i same
    rw [← same]
    exact get?_insert_self dict key value
  · exact get?_insert_of_ne dict value ‹_›

/-- A value that is read stands in an entry. -/
theorem mem_of_get? {dict : Dict α} {key : String} {value : α}
    (found : get? dict key = some value) : (key, value) ∈ dict := by
  induction dict with
  | nil => cases found
  | cons entry rest ih =>
    obtain ⟨k, v⟩ := entry
    rw [get?_cons] at found
    split at found
    · rename_i same
      cases same
      cases found
      exact List.mem_cons_self
    · exact List.mem_cons_of_mem _ (ih found)

/-- Under distinct keys every entry is read. -/
theorem get?_of_mem {dict : Dict α} {key : String} {value : α} (distinct : (keys dict).Nodup)
    (member : (key, value) ∈ dict) : get? dict key = some value := by
  induction dict with
  | nil => cases member
  | cons entry rest ih =>
    obtain ⟨k, v⟩ := entry
    obtain ⟨first, others⟩ := List.nodup_cons.mp distinct
    rw [get?_cons]
    rcases List.mem_cons.mp member with here | later
    · cases here
      exact if_pos rfl
    · rw [if_neg]
      · exact ih others later
      · rintro rfl
        have again := List.mem_map_of_mem (f := Prod.fst) later
        exact first again

/-- Under distinct keys the order of the entries does not matter to what is read. -/
theorem get?_of_perm {dict other : Dict α} (distinct : (keys dict).Nodup) (same : dict.Perm other)
    (key : String) : get? dict key = get? other key := by
  cases found : get? other key with
  | none =>
    rw [get?_eq_none_iff] at found ⊢
    exact fun member => found ((same.map Prod.fst).mem_iff.mp member)
  | some value => exact get?_of_mem distinct (same.mem_iff.mpr (mem_of_get? found))

/-- Removing a key leaves the others alone. -/
theorem get?_erase_of_ne (dict : Dict α) {key other : String} (different : key ≠ other) :
    get? (erase dict key) other = get? dict other := by
  induction dict with
  | nil => rfl
  | cons entry rest ih =>
    obtain ⟨k, v⟩ := entry
    rw [erase, get?_cons]
    split
    · rename_i same
      rw [if_neg fun here => different (same.symm.trans here)]
    · rw [get?_cons, ih]

/-- Under distinct keys a removed key is gone. -/
theorem get?_erase_self {dict : Dict α} (distinct : (keys dict).Nodup) (key : String) :
    get? (erase dict key) key = none := by
  rw [get?_eq_none_iff, keys_erase]
  exact distinct.not_mem_erase

/-- Removing a key keeps keys distinct. -/
theorem keys_erase_nodup {dict : Dict α} (distinct : (keys dict).Nodup) (key : String) :
    (keys (erase dict key)).Nodup := by
  rw [keys_erase]
  exact distinct.erase key

/-- Writing what is there changes nothing. -/
theorem insert_of_get? {dict : Dict α} {key : String} {value : α}
    (found : get? dict key = some value) : insert dict key value = dict := by
  induction dict with
  | nil => cases found
  | cons entry rest ih =>
    obtain ⟨k, v⟩ := entry
    by_cases same : k = key
    · simp_all [get?, insert]
    · simp only [get?, insert, same, if_false] at found ⊢
      rw [ih found]

/-- The second of two writes of a key counts. -/
theorem insert_insert (dict : Dict α) (key : String) (first second : α) :
    insert (insert dict key first) key second = insert dict key second := by
  induction dict with
  | nil => simp [insert]
  | cons entry rest ih =>
    obtain ⟨k, v⟩ := entry
    by_cases same : k = key <;> simp [insert, same, ih]

/-- Writing keeps keys distinct. -/
theorem keys_insert_nodup {dict : Dict α} (distinct : (keys dict).Nodup) (key : String)
    (value : α) : (keys (insert dict key value)).Nodup := by
  by_cases present : key ∈ keys dict
  · rwa [keys_insert_of_mem dict value present]
  · have appended : keys (insert dict key value) = keys dict ++ [key] := by
      rw [insert_of_not_mem dict value present]
      exact List.map_append
    rw [appended]
    refine List.nodup_append.mpr ⟨distinct, List.nodup_singleton _, ?_⟩
    rintro other before _ (_ | _) rfl
    · exact present before
    · contradiction

/-- The keys after a write do not depend on the values. -/
theorem keys_insert_congr {first second : Dict α}
    (same : keys first = keys second) (key : String) (value value' : α) :
    keys (first.insert key value) = keys (second.insert key value') := by
  by_cases present : key ∈ keys first
  · rw [keys_insert_of_mem first value present,
      keys_insert_of_mem second value' (same ▸ present), same]
  · rw [insert_of_not_mem first value present,
      insert_of_not_mem second value' (same ▸ present)]
    simp only [keys, List.map_append] at same ⊢
    rw [same]
    rfl

/-- An entry after a write is the one written or was there before. -/
theorem mem_insert {dict : Dict α} {key : String} {value : α} {entry : String × α}
    (member : entry ∈ insert dict key value) : entry = (key, value) ∨ entry ∈ dict := by
  induction dict with
  | nil => exact .inl (List.mem_singleton.mp member)
  | cons head rest ih =>
    obtain ⟨k, v⟩ := head
    rw [insert] at member
    split at member
    · rename_i same
      subst same
      rcases List.mem_cons.mp member with here | inRest
      · exact .inl here
      · exact .inr (List.mem_cons_of_mem _ inRest)
    · rcases List.mem_cons.mp member with here | inRest
      · exact .inr (here ▸ List.mem_cons_self)
      · exact (ih inRest).imp_right (List.mem_cons_of_mem _)

theorem insertAll_cons (dict : Dict α) (entry : String × α) (entries : List (String × α)) :
    insertAll dict (entry :: entries) = insertAll (insert dict entry.1 entry.2) entries := rfl

/-- What is read after several writes with distinct keys. -/
theorem get?_insertAll (dict : Dict α) {entries : Dict α} (distinct : (keys entries).Nodup)
    (key : String) :
    get? (insertAll dict entries) key = (get? entries key).or (get? dict key) := by
  induction entries generalizing dict with
  | nil => rfl
  | cons entry rest ih =>
    obtain ⟨k, v⟩ := entry
    obtain ⟨absent, distinctRest⟩ := List.nodup_cons.mp distinct
    rw [insertAll_cons, ih _ distinctRest, get?_insert, get?_cons]
    split
    · rename_i same
      subst same
      rw [(get?_eq_none_iff rest k).mpr absent]
      rfl
    · rfl

theorem keys_insertAll_nodup {dict : Dict α} (distinct : (keys dict).Nodup)
    (entries : List (String × α)) : (keys (insertAll dict entries)).Nodup := by
  induction entries generalizing dict with
  | nil => exact distinct
  | cons entry rest ih => exact ih (keys_insert_nodup distinct _ _)

theorem keys_ofEntries_nodup (entries : List (String × α)) : (keys (ofEntries entries)).Nodup :=
  @keys_insertAll_nodup α [] List.nodup_nil entries

/-- Entries with new and distinct keys go to the end. -/
theorem insertAll_of_distinct {dict : Dict α} {entries : Dict α}
    (distinct : (keys (dict ++ entries)).Nodup) : insertAll dict entries = dict ++ entries := by
  induction entries generalizing dict with
  | nil => exact (List.append_nil dict).symm
  | cons entry rest ih =>
    have new : entry.1 ∉ keys dict := by
      intro before
      rw [keys, List.map_append, List.nodup_append] at distinct
      exact distinct.2.2 _ before _ List.mem_cons_self rfl
    have shifted : dict ++ entry :: rest = (dict ++ [entry]) ++ rest := by simp
    rw [insertAll_cons, insert_of_not_mem dict entry.2 new, shifted]
    rw [shifted] at distinct
    exact ih distinct

/-- Entries with distinct keys are a dictionary as they are. -/
theorem ofEntries_of_distinct {entries : Dict α} (distinct : (keys entries).Nodup) :
    ofEntries entries = entries :=
  @insertAll_of_distinct α [] entries distinct

/-- An entry after several writes is one of those written or was there before. -/
theorem mem_insertAll {dict : Dict α} {entries : List (String × α)} {entry : String × α}
    (member : entry ∈ insertAll dict entries) : entry ∈ entries ∨ entry ∈ dict := by
  induction entries generalizing dict with
  | nil => exact .inr member
  | cons first rest ih =>
    rcases ih member with inRest | inserted
    · exact .inl (List.mem_cons_of_mem _ inRest)
    · rcases mem_insert inserted with rfl | before
      · exact .inl List.mem_cons_self
      · exact .inr before

theorem mem_of_mem_ofEntries {entries : List (String × α)} {entry : String × α}
    (member : entry ∈ ofEntries entries) : entry ∈ entries :=
  (mem_insertAll member).resolve_right List.not_mem_nil

/-- What is found in one dictionary behind another. -/
theorem get?_append (first second : Dict α) (key : String) :
    get? (first ++ second) key = (get? first key).or (get? second key) := by
  induction first with
  | nil => rfl
  | cons entry rest ih =>
    obtain ⟨k, v⟩ := entry
    rw [List.cons_append, get?_cons, get?_cons, ih]
    split <;> rfl

theorem keys_append (first second : Dict α) :
    keys (first ++ second) = keys first ++ keys second :=
  List.map_append

theorem keys_mapValues {β : Type} (f : α → β) (dict : Dict α) :
    keys (dict.mapValues f) = keys dict := by
  simp [keys, mapValues, Function.comp_def]

end Dict

end FieldResolver
