/-
**The text of a key is the key.**

Items are stored under the texts of their keys. Keys have the same text if and only if they have
the same attributes with the same values, in whatever order.

* `Index.ext`: an index is determined by what is read from it;
* `SameKey`: keys that differ at most in the order of their attributes;
* `keyText_eq_iff`: these are the keys with the same text;
* `sameKey_iff_perm`: and those with the same entries in some order;
* `keyText_tells_keys`: an item is found under the key that it was stored under, with its attributes
  in any order, and under no other.
-/

import FieldResolver.Proofs.Json.Text
import FieldResolver.Proofs.Table.Entries

namespace FieldResolver.Table

namespace Index

variable {α : Type}

/-- An entry of an index is one of those that it was made of. -/
theorem mem_of_mem_ofEntries {entries : List (String × α)} {entry : String × α}
    (member : entry ∈ ofEntries entries) : entry ∈ entries := by
  suffices general : ∀ index : Index α,
      entry ∈ entries.foldl (fun index entry => insert index entry.1 entry.2) index →
        entry ∈ entries ∨ entry ∈ index from (general [] member).resolve_right List.not_mem_nil
  clear member
  induction entries with
  | nil => exact fun _ member => .inr member
  | cons first rest ih =>
    intro index member
    rcases ih _ member with inRest | inserted
    · exact .inl (List.mem_cons_of_mem _ inRest)
    · rcases mem_insert inserted with rfl | before
      · exact .inl List.mem_cons_self
      · exact .inr before

/-- What is read from an index of entries with distinct keys. -/
theorem get?_ofEntries {entries : Dict α} (distinct : (Dict.keys entries).Nodup) (key : String) :
    get? (ofEntries entries) key = entries.get? key := by
  suffices general : ∀ index : Index α,
      get? (entries.foldl (fun index entry => insert index entry.1 entry.2) index) key =
        (entries.get? key).or (get? index key) by
    rw [ofEntries, general]
    exact Option.or_none
  induction entries with
  | nil => exact fun _ => rfl
  | cons entry rest ih =>
    obtain ⟨k, v⟩ := entry
    obtain ⟨absent, distinctRest⟩ := List.nodup_cons.mp distinct
    intro index
    rw [List.foldl_cons, ih distinctRest, get?_insert, Dict.get?_cons]
    split
    · rename_i same
      subst same
      rw [(Dict.get?_eq_none_iff rest k).mpr absent]
      rfl
    · rfl

/-- An index is determined by what is read from it. -/
theorem ext {first second : Index α} (ascending : Ascending first) (ascending' : Ascending second)
    (same : ∀ key, get? first key = get? second key) : first = second := by
  induction first generalizing second with
  | nil =>
    cases second with
    | nil => rfl
    | cons entry rest =>
      have read := same entry.1
      rw [get?, get?, if_pos rfl] at read
      cases read
  | cons entry rest ih =>
    obtain ⟨key, value⟩ := entry
    obtain ⟨least, below⟩ := ascending_cons.mp ascending
    cases second with
    | nil =>
      have read := same key
      rw [get?, get?, if_pos rfl] at read
      cases read
    | cons entry' rest' =>
      obtain ⟨key', value'⟩ := entry'
      obtain ⟨least', below'⟩ := ascending_cons.mp ascending'
      -- Of two different first keys, the smaller one is not in the other index.
      have heads : key = key' := by
        rcases lt_trichotomy key key' with before | equal | after
        · have read := same key
          rw [get?, if_pos rfl, get?_eq_none_of_lt] at read
          · cases read
          · exact List.forall_mem_cons.mpr
              ⟨before, fun other member => lt_trans before (least' other member)⟩
        · exact equal
        · have read := same key'
          rw [get?_eq_none_of_lt, get?, if_pos rfl] at read
          · cases read
          · exact List.forall_mem_cons.mpr
              ⟨after, fun other member => lt_trans after (least other member)⟩
      subst heads
      have values := same key
      rw [get?, get?, if_pos rfl, if_pos rfl] at values
      cases values
      have rests : rest = rest' := by
        refine ih below below' fun other => ?_
        by_cases here : key = other
        · subst here
          rw [get?_eq_none_of_lt least, get?_eq_none_of_lt least']
        · have read := same other
          rwa [get?, get?, if_neg here, if_neg here] at read
      rw [rests]

end Index

/-- Whether an item can stand in a request: its attributes have distinct names and valid values. -/
structure WellFormed (item : Item) : Prop where
  distinct : (Dict.keys item).Nodup
  valid : Json.FieldsValid item

/-- Whether two keys have the same attributes with the same values, in whatever order. -/
def SameKey (first second : Item) : Prop := ∀ name, first.get? name = second.get? name

/-- The attributes of a well-formed item in the order of their names are a value. -/
theorem WellFormed.ordered_valid {item : Item} (formed : WellFormed item) :
    (Json.object (Index.ofEntries item)).Valid := by
  refine ⟨?_, Json.fieldsValid_iff.mpr fun field member => ?_⟩
  · exact (Index.ascending_ofEntries item).imp fun below => ne_of_lt below
  · exact Json.fieldsValid_iff.mp formed.valid field (Index.mem_of_mem_ofEntries member)

/-- **Keys have the same text if and only if they have the same attributes with the same values**,
in whatever order. -/
theorem keyText_eq_iff {first second : Item} (formed : WellFormed first)
    (formed' : WellFormed second) : keyText first = keyText second ↔ SameKey first second := by
  constructor
  · intro same name
    have objects := Json.render_injective formed.ordered_valid formed'.ordered_valid same
    rw [← Index.get?_ofEntries formed.distinct, ← Index.get?_ofEntries formed'.distinct,
      Json.object.inj objects]
  · intro same
    have indices : Index.ofEntries first = Index.ofEntries second := by
      refine Index.ext (Index.ascending_ofEntries first) (Index.ascending_ofEntries second) ?_
      intro name
      rw [Index.get?_ofEntries formed.distinct, Index.get?_ofEntries formed'.distinct, same]
    rw [keyText, keyText, indices]

/-- Keys have the same attributes with the same values if and only if their entries are the same in
some order. -/
theorem sameKey_iff_perm {first second : Item} (distinct : (Dict.keys first).Nodup)
    (distinct' : (Dict.keys second).Nodup) : SameKey first second ↔ first.Perm second := by
  constructor
  · intro same
    rw [List.perm_ext_iff_of_nodup distinct.of_map distinct'.of_map]
    rintro ⟨name, value⟩
    constructor
    · intro member
      have read := Dict.get?_of_mem distinct member
      exact Dict.mem_of_get? ((same name).symm.trans read)
    · intro member
      have read := Dict.get?_of_mem distinct' member
      exact Dict.mem_of_get? ((same name).trans read)
  · exact fun perm => Dict.get?_of_perm distinct perm

/-- What is found under a key after an item was stored under another. -/
theorem Contents.find?_store (table : Contents) (key item other : Item) :
    (table.store key item).find? other =
      if keyText key = keyText other then some item else table.find? other :=
  Index.get?_insert table.items (keyText key) (keyText other) item

/-- **The text of a key tells it from every other key**, whatever stands in the names and in the
values, nested to any depth. Keys have the same text if and only if they have the same entries in
some order; so an item that is stored under a key is found under this key and under no other. -/
theorem keyText_tells_keys {first second : Item} (formed : WellFormed first)
    (formed' : WellFormed second) :
    (keyText first = keyText second ↔ first.Perm second) ∧
      ∀ (table : Contents) (item : Item),
        (first.Perm second → (table.store first item).find? second = some item) ∧
          (¬ first.Perm second →
            (table.store first item).find? second = table.find? second) := by
  have texts : keyText first = keyText second ↔ first.Perm second :=
    (keyText_eq_iff formed formed').trans (sameKey_iff_perm formed.distinct formed'.distinct)
  refine ⟨texts, fun table item => ⟨fun same => ?_, fun other => ?_⟩⟩
  · rw [Contents.find?_store, if_pos (texts.mpr same)]
  · rw [Contents.find?_store, if_neg (mt texts.mp other)]

namespace Quoting

/-- A string attribute. -/
def text (value : String) : Json := .object [("S", .string value)]

/-- A map attribute with two fields. -/
def pair (first second : String) : Json :=
  .object [("M", .object [(first, .null), (second, .null)])]

/-- A key with three attributes. -/
def plain : Item := [("id", text "a"), ("no", pair "x" "y"), ("to", text "b")]

/-- The same key with its attributes in another order. -/
def turned : Item := [("no", pair "x" "y"), ("id", text "a"), ("to", text "b")]

/-- A key with the fields of one attribute in another order. -/
def inside : Item := [("id", text "a"), ("no", pair "y" "x"), ("to", text "b")]

/-- A key with one attribute, which would have the text of all three if quotes were not escaped. -/
def forged : Item :=
  [("id",
    text "a\"\x7d,\"no\":\x7b\"M\":\x7b\"x\":null,\"y\":null\x7d\x7d,\"to\":\x7b\"S\":\"b")]

theorem text_valid (value : String) : (text value).Valid :=
  ⟨List.nodup_singleton _, trivial, trivial⟩

theorem pair_valid {first second : String} (apart : first ≠ second) :
    (pair first second).Valid :=
  ⟨List.nodup_singleton _, ⟨by simpa [Dict.keys] using apart, trivial, trivial, trivial⟩, trivial⟩

/-- **Only the order of the attributes does not show** in the text of a key. -/
theorem plain_told_apart :
    (WellFormed plain ∧ WellFormed turned ∧ WellFormed inside ∧ WellFormed forged) ∧
      keyText plain = keyText turned ∧ keyText plain ≠ keyText inside ∧
      keyText plain ≠ keyText forged := by
  have formed : WellFormed plain :=
    ⟨by decide, text_valid _, pair_valid (by decide), text_valid _, trivial⟩
  have formedTurned : WellFormed turned :=
    ⟨by decide, pair_valid (by decide), text_valid _, text_valid _, trivial⟩
  have formedInside : WellFormed inside :=
    ⟨by decide, text_valid _, pair_valid (by decide), text_valid _, trivial⟩
  have formedForged : WellFormed forged := ⟨by decide, text_valid _, trivial⟩
  refine ⟨⟨formed, formedTurned, formedInside, formedForged⟩, ?_, fun same => ?_, fun same => ?_⟩
  · exact (keyText_tells_keys formed formedTurned).1.mpr (.swap _ _ _)
  · have perm := (keyText_tells_keys formed formedInside).1.mp same
    have member : ("no", pair "x" "y") ∈ inside := perm.mem_iff.mp (by simp [plain])
    simp [inside, pair] at member
  · have perm := (keyText_tells_keys formed formedForged).1.mp same
    exact absurd perm.length_eq (by decide)

end Quoting

end FieldResolver.Table
