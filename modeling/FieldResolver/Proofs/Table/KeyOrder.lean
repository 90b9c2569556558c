/-
**The order of listings.**

A listing shows items in the order of the texts of their keys. Where two keys differ in one string
or number, its quoted form decides. Strings without escapes compare in that order unless one goes on
behind the other with a blank or an exclamation mark. Numbers come in the order of their texts and
not of their values: 10 in front of 9.

* `Index.insert_split`: an index around the value of a key;
* `DifferAt.keyText_lt_iff`: the order of keys that differ in one attribute;
* `Listing.Decides`: what the order of two such keys says of the attribute;
* `Reached.listed_by_text`: the order of the items that a listing shows.
-/

import FieldResolver.Proofs.Json.TextOrder
import FieldResolver.Proofs.Table.KeyText
import FieldResolver.Proofs.Table.Listing
import FieldResolver.Proofs.Table.Reached

namespace FieldResolver.Table

open Json

/-! ### Keys that differ in one attribute -/

/-- Whether two keys have the same attributes but for one, which has a text of the same type in
both. -/
structure DifferAt (name type : String) (first second : Item) (text text' : String) : Prop where
  others : ∀ other, other ≠ name → first.get? other = second.get? other
  first : first.get? name = some (Attribute.tagged type (.string text))
  second : second.get? name = some (Attribute.tagged type (.string text'))

/-- An index around the value of a key. -/
theorem Index.insert_split {α : Type} {index : Index α} (ascending : index.Ascending)
    {key : String} {before : α} (found : index.get? key = some before) :
    ∃ front back, ∀ value, index.insert key value = front ++ (key, value) :: back := by
  induction index with
  | nil => cases found
  | cons head rest ih =>
    obtain ⟨k, v⟩ := head
    obtain ⟨least, below⟩ := ascending_cons.mp ascending
    rw [get?] at found
    split at found
    · rename_i same
      exact ⟨[], rest, fun value => by rw [insert, if_pos same, List.nil_append]⟩
    · rename_i different
      obtain ⟨front, back, split⟩ := ih below found
      have after : k < key := least _ (mem_of_get? found)
      refine ⟨(k, v) :: front, back, fun value => ?_⟩
      rw [insert, if_neg different, if_neg (lt_asymm after), split, List.cons_append]

/-- An index that reads like another one but for one key is the other one with that key written. -/
theorem Index.eq_insert {α : Type} {first second : Index α} (ascending : first.Ascending)
    (ascending' : second.Ascending) {key : String} {value : α}
    (others : ∀ other, other ≠ key → first.get? other = second.get? other)
    (found : second.get? key = some value) : second = first.insert key value := by
  refine Index.ext ascending' (ascending_insert ascending key value) fun other => ?_
  rw [get?_insert]
  split
  · rename_i same
    rw [← same, found]
  · rename_i different
    exact (others other (Ne.symm different)).symm

section

variable {name type text text' : String} {first second : Item}

theorem DifferAt.symm (differ : DifferAt name type first second text text') :
    DifferAt name type second first text' text where
  others := fun other different => (differ.others other different).symm
  first := differ.second
  second := differ.first

/-- The texts of keys that differ in one attribute are the same around its text. -/
theorem DifferAt.keyText_split (formed : WellFormed first) (formed' : WellFormed second)
    (differ : DifferAt name type first second text text') :
    ∃ start rest, (keyText first).toList = start ++ (quote text.toList ++ rest) ∧
      (keyText second).toList = start ++ (quote text'.toList ++ rest) := by
  have ordered := Index.ascending_ofEntries first
  have ordered' := Index.ascending_ofEntries second
  have found := (Index.get?_ofEntries formed.distinct name).trans differ.first
  have found' := (Index.get?_ofEntries formed'.distinct name).trans differ.second
  have others : ∀ other, other ≠ name →
      (Index.ofEntries first).get? other = (Index.ofEntries second).get? other := by
    intro other different
    rw [Index.get?_ofEntries formed.distinct, Index.get?_ofEntries formed'.distinct,
      differ.others other different]
  obtain ⟨front, back, split⟩ := Index.insert_split ordered found
  obtain ⟨start, rest, texts⟩ := object_split front back name
  have key := Index.eq_insert ordered ordered (fun _ _ => rfl) found
  have key' := Index.eq_insert ordered ordered' others found'
  have value (content : String) : (Attribute.tagged type (.string content)).chars =
      '\x7b' :: (quote type.toList ++ ':' :: (quote content.toList ++ ['\x7d'])) := by
    simp [Attribute.tagged, chars, fieldTexts, commaSeparated]
  refine ⟨start ++ '\x7b' :: (quote type.toList ++ [':']), '\x7d' :: rest, ?_, ?_⟩
  · rw [keyText, key, split, render, String.toList_ofList, texts, value]
    simp
  · rw [keyText, key', split, render, String.toList_ofList, texts, value]
    simp

/-- **Keys that differ in one attribute are in the order of its quoted texts.** -/
theorem DifferAt.keyText_lt_iff (formed : WellFormed first) (formed' : WellFormed second)
    (differ : DifferAt name type first second text text') :
    keyText first < keyText second ↔ quote text.toList < quote text'.toList := by
  obtain ⟨start, rest, same, same'⟩ := differ.keyText_split formed formed'
  rw [String.lt_iff_toList_lt, same, same', append_lt_append, quote_append_lt]

end

/-! ### Listings -/

namespace Listing

/-- Whether two values are in the order of a listing. -/
def Orders {α : Type} [LT α] (listing : Listing) (first second : α) : Prop :=
  if listing.forward then first < second else second < first

/-- How a value compares with one behind it in a listing. -/
def direction (listing : Listing) : Ordering := if listing.forward then .lt else .gt

/-- The entries of a table in the direction of a listing. -/
def entries (listing : Listing) (table : Contents) : Index Item :=
  if listing.forward then table.items else table.items.reverse

/-- The entries that the page of a listing shows. -/
def shown (listing : Listing) (table : Contents) : Index Item :=
  (((((listing.entries table).filter fun entry =>
    listing.query.all fun condition => condition.holds entry.2).take
      (listing.last table)).drop listing.offset).filter fun entry => listing.passes entry.2)

theorem candidates_eq (listing : Listing) (table : Contents) :
    listing.candidates table = ((listing.entries table).filter fun entry =>
      listing.query.all fun condition => condition.holds entry.2).map Prod.snd := by
  obtain ⟨query, filter, forward, offset, limit⟩ := listing
  unfold candidates Table.candidates entries Index.values
  cases query <;> cases forward <;>
    simp [List.filter_map, List.filter_reverse, Function.comp_def]

/-- The items of a page are those of the entries that it shows. -/
theorem values_shown (listing : Listing) (table : Contents) :
    (listing.shown table).map Prod.snd = (listing.scanned table).filter listing.passes := by
  rw [scanned, candidates_eq, ← List.map_take, ← List.map_drop, List.filter_map]
  rfl

theorem shown_sublist (listing : Listing) (table : Contents) :
    (listing.shown table).Sublist (listing.entries table) :=
  (List.filter_sublist.trans (List.drop_sublist _ _)).trans
    ((List.take_sublist _ _).trans List.filter_sublist)

/-- The entries that a page shows are in the order of their keys. -/
theorem shown_ordered (listing : Listing) {table : Contents} (sound : table.Sound) :
    (listing.shown table).Pairwise fun before after => listing.Orders before.1 after.1 := by
  refine List.Pairwise.sublist (listing.shown_sublist table) ?_
  have ascending : table.items.Pairwise fun before after => before.1 < after.1 :=
    List.pairwise_map.mp sound.ordered
  unfold entries Orders
  cases listing.forward with
  | true => exact ascending
  | false => exact List.pairwise_reverse.mpr ascending

section

variable {listing : Listing} {text text' : String}

/-- Keys that differ in one attribute are in the order of a listing if its quoted texts are. -/
theorem orders_keyText {attr type : String} {first second : Item} (formed : WellFormed first)
    (formed' : WellFormed second) (differ : DifferAt attr type first second text text') :
    listing.Orders (keyText first) (keyText second) ↔
      listing.Orders (quote text.toList) (quote text'.toList) := by
  unfold Orders
  cases listing.forward with
  | true => exact differ.keyText_lt_iff formed formed'
  | false => exact differ.symm.keyText_lt_iff formed' formed

/-- Strings are compared by their characters. -/
theorem compare?_eq_direction :
    Attribute.compare? (Attribute.tagged "S" (.string text))
        (Attribute.tagged "S" (.string text')) = some listing.direction ↔
      listing.Orders text.toList text'.toList := by
  show some (compareOfLessAndEq text text') = some listing.direction ↔ _
  rw [Option.some_inj, direction, Orders, ← String.lt_iff_toList_lt, ← String.lt_iff_toList_lt]
  cases listing.forward with
  | true => exact compareOfLessAndEq_eq_lt
  | false => exact compareOfLessAndEq_eq_gt le_antisymm le_total not_le text text'

/-- Texts without escapes whose quoted forms are in the order of a listing are in that order
themselves exactly if none goes on behind the other in front of the quote. -/
theorem orders_iff_of_quote (plain : Plain text.toList) (plain' : Plain text'.toList)
    (quoted : listing.Orders (quote text.toList) (quote text'.toList)) :
    listing.Orders text.toList text'.toList ↔
      GoesOn text.toList text'.toList ∧ GoesOn text'.toList text.toList := by
  revert quoted
  unfold Orders
  cases listing.forward with
  | true => exact fun quoted => lt_iff_of_quote_lt plain plain' quoted
  | false => exact fun quoted => (lt_iff_of_quote_lt plain' plain quoted).trans and_comm

/-- What it says of two texts of a type that a listing shows the first in front of the second: their
quoted forms are in this order; strings without escapes compare in it exactly if none goes on behind
the other with a character in front of the quote; the texts of numbers are in it. -/
structure Decides (listing : Listing) (type text text' : String) : Prop where
  quoted : listing.Orders (quote text.toList) (quote text'.toList)
  strings : type = "S" → Plain text.toList → Plain text'.toList →
    (Attribute.compare? (Attribute.tagged type (.string text))
        (Attribute.tagged type (.string text')) = some listing.direction ↔
      GoesOn text.toList text'.toList ∧ GoesOn text'.toList text.toList)
  numbers : type = "N" → (Attribute.float? (Attribute.tagged type (.string text))).isSome →
    (Attribute.float? (Attribute.tagged type (.string text'))).isSome →
      listing.Orders text.toList text'.toList

theorem decides_of_quoted (type : String)
    (quoted : listing.Orders (quote text.toList) (quote text'.toList)) :
    listing.Decides type text text' where
  quoted := quoted
  strings := by
    rintro rfl plain plain'
    exact compare?_eq_direction.trans (orders_iff_of_quote plain plain' quoted)
  numbers := by
    rintro rfl number number'
    obtain ⟨value, read⟩ := Option.isSome_iff_exists.mp number
    obtain ⟨value', read'⟩ := Option.isSome_iff_exists.mp number'
    have ordinary : ∀ c ∈ text.toList, isOrdinary c = true := ordinary_of_float? read
    have ordinary' : ∀ c ∈ text'.toList, isOrdinary c = true := ordinary_of_float? read'
    refine (orders_iff_of_quote (plain_of_ordinary ordinary) (plain_of_ordinary ordinary')
      quoted).mpr ⟨?_, ?_⟩
    · exact goesOn_of_ordinary ordinary' _
    · exact goesOn_of_ordinary ordinary _

end

end Listing

/-- **The order of listings.** A listing shows entries of the table in the order of the texts of
their keys, in the direction asked for. Of keys that differ in one attribute, its text decides. -/
theorem Reached.listed_by_text {store : Store} (reached : Reached store) (name : String)
    {request : Json} {listing : Listing} (lists : Lists request listing) :
    ∃ page : Page, store.execute name request = (.ok page.json, store) ∧
      ((listing.shown (store.table name)).map Prod.snd).mapM plainItem = .ok page.items ∧
      (listing.shown (store.table name)).Sublist (listing.entries (store.table name)) ∧
      (listing.shown (store.table name)).Pairwise fun before after =>
        listing.Orders before.1 after.1 ∧
          ∀ key key' attr type text text', WellFormed key → WellFormed key' →
            before.1 = keyText key → after.1 = keyText key' →
            DifferAt attr type key key' text text' → listing.Decides type text text' := by
  obtain ⟨items, shown, page⟩ := listing.page_ok (reached.sound name)
  rw [← listing.values_shown] at shown
  have answer := lists.execute_eq store name
  rw [page] at answer
  refine ⟨_, answer, shown, listing.shown_sublist _, ?_⟩
  refine (listing.shown_ordered (reached.sound name)).imp ?_
  intro before after orders
  refine ⟨orders, fun key key' attr type text text' formed formed' here there differ => ?_⟩
  rw [here, there] at orders
  exact Listing.decides_of_quoted type ((Listing.orders_keyText formed formed' differ).mp orders)

/-! ### Two items in the wrong order -/

namespace Misplaced

/-- A key. -/
def key (type content : String) : Item := [("id", Attribute.tagged type (.string content))]

/-- A put of a key. -/
def put (type content : String) : Json :=
  .object [("operation", .string "PutItem"), ("key", .object (key type content))]

/-- The store with two items. -/
def store (type first second : String) : Store :=
  ((Store.execute [] "posts" (put type first)).2.execute "posts" (put type second)).2

/-- A scan. -/
def scan : Json := .object [("operation", .string "Scan")]

/-- What the scan lists. -/
def listing : Listing := ⟨none, none, true, 0, none⟩

/-- The page that shows two items. -/
def page (first second : Json) : Page where
  items := [.object [("id", first)], .object [("id", second)]]
  scanned := 2
  next := none

theorem reached (type first second : String) : Reached (store type first second) :=
  (Reached.empty.request "posts" _).request "posts" _

theorem lists : Lists scan listing :=
  .intro rfl (.inr rfl) rfl (fun same => nomatch same) ⟨rfl, rfl, rfl, rfl, rfl⟩

theorem differ (type first second : String) :
    DifferAt "id" type (key type first) (key type second) first second where
  others := fun other different => by
    simp only [key, Dict.get?, if_neg (Ne.symm different)]
  first := rfl
  second := rfl

theorem formed (type content : String) : WellFormed (key type content) := by
  refine ⟨?_, ?_⟩ <;> simp [key, Attribute.tagged, Dict.keys, Json.Valid, Json.FieldsValid]

/-- An entry with a key. -/
def entry (type content : String) : String × Item := (keyText (key type content), key type content)

/-- **A scan shows 10 in front of 9, and a longer string in front of a shorter one.** -/
theorem greater_first :
    (Reached (store "N" "9" "10") ∧
      DifferAt "id" "N" (key "N" "9") (key "N" "10") "9" "10" ∧
      Attribute.compare? (Attribute.tagged "N" (.string "9"))
        (Attribute.tagged "N" (.string "10")) = some .lt ∧
      ((store "N" "9" "10").execute "posts" scan).1 = .ok (page (.int 10) (.int 9)).json) ∧
    (Reached (store "S" "a" "a b") ∧
      DifferAt "id" "S" (key "S" "a") (key "S" "a b") "a" "a b" ∧
      Attribute.compare? (Attribute.tagged "S" (.string "a"))
        (Attribute.tagged "S" (.string "a b")) = some .lt ∧
      ((store "S" "a" "a b").execute "posts" scan).1 =
        .ok (page (.string "a b") (.string "a")).json) := by
  refine ⟨⟨reached _ _ _, differ _ _ _, by decide +kernel, by rfl⟩,
    ⟨reached _ _ _, differ _ _ _, by decide +kernel, by rfl⟩⟩

/-- A scan shows numbers in the order of their texts, and strings that start differently in the
order in which they compare. -/
theorem shown_by_text :
    Reached (store "N" "9" "10") ∧ Reached (store "S" "b c" "a") ∧ Lists scan listing ∧
      listing.shown ((store "N" "9" "10").table "posts") = [entry "N" "10", entry "N" "9"] ∧
      listing.Orders "10".toList "9".toList ∧
      listing.shown ((store "S" "b c" "a").table "posts") = [entry "S" "a", entry "S" "b c"] ∧
      Attribute.compare? (Attribute.tagged "S" (.string "a"))
        (Attribute.tagged "S" (.string "b c")) = some listing.direction := by
  have numbers : listing.shown ((store "N" "9" "10").table "posts") =
      [entry "N" "10", entry "N" "9"] := by rfl
  have strings : listing.shown ((store "S" "b c" "a").table "posts") =
      [entry "S" "a", entry "S" "b c"] := by rfl
  refine ⟨reached _ _ _, reached _ _ _, lists, numbers, ?_, strings, ?_⟩
  · obtain ⟨_, _, _, _, ordered⟩ := (reached "N" "9" "10").listed_by_text "posts" lists
    rw [numbers] at ordered
    obtain ⟨_, decided⟩ := List.rel_of_pairwise_cons ordered (List.mem_singleton_self _)
    exact (decided _ _ _ _ _ _ (formed "N" "10") (formed "N" "9") rfl rfl
      (differ "N" "10" "9")).numbers rfl (by decide +kernel) (by decide +kernel)
  · obtain ⟨_, _, _, _, ordered⟩ := (reached "S" "b c" "a").listed_by_text "posts" lists
    rw [strings] at ordered
    obtain ⟨_, decided⟩ := List.rel_of_pairwise_cons ordered (List.mem_singleton_self _)
    have apart : GoesOn "a".toList "b c".toList ∧ GoesOn "b c".toList "a".toList := by
      refine ⟨fun c rest same => ?_, fun c rest same => ?_⟩
      · cases same
      · cases same
    exact ((decided _ _ _ _ _ _ (formed "S" "a") (formed "S" "b c") rfl rfl
      (differ "S" "a" "b c")).strings rfl (by decide) (by decide)).mpr apart

end Misplaced

end FieldResolver.Table
