/-
**What is stored is well-formed.**

In a store that valid requests lead to, whatever becomes of them, every item has distinct attribute
names and valid values, and it stands under the text of a key whose attributes it has.

* `Expression.update_valid`: the values of an update that is read are valid;
* `Update.apply_wellFormed`: an update of a well-formed item gives a well-formed one;
* `Contents.Kept`: what holds of every table, kept by every operation;
* `Built.kept`: so it holds of every store that valid requests lead to.
-/

import FieldResolver.Proofs.Table.History

namespace FieldResolver.Table

open Fallible

/-! ### Values of updates -/

/-- Whether the value of an operand is valid, if it gives one itself. -/
def Operand.Valid : Operand → Prop
  | .attribute _ => True
  | .value constant => constant.Valid

/-- Whether the values of a right-hand side are valid. -/
def SetValue.Valid : SetValue String Operand → Prop
  | .operand single => single.Valid
  | .ifNotExists _ fallback => fallback.Valid
  | .listAppend first second => first.Valid ∧ second.Valid
  | .plus .. | .minus .. => True

/-- Whether the values that an update sets and adds are valid. -/
structure Update.Valid (update : Expression.ResolvedUpdate) : Prop where
  set : ∀ action ∈ update.set, action.2.Valid
  add : ∀ action ∈ update.add, action.2.Valid

namespace Expression

section

variable {expression : Expression} {tokens rest : List Token}

theorem value_valid (valid : Json.FieldsValid expression.values) {value : Json}
    (read : expression.value tokens = .ok (value, rest)) : value.Valid := by
  unfold Expression.value at read
  split at read
  · split at read
    · rename_i found
      cases read
      exact valid.get? found
    · cases read
  · cases read

theorem operand_valid (valid : Json.FieldsValid expression.values) {operand : Operand}
    (read : expression.operand tokens = .ok (operand, rest)) : operand.Valid := by
  unfold Expression.operand at read
  split at read
  · obtain ⟨⟨value, others⟩, found, same⟩ := map_ok read
    cases same
    exact value_valid valid found
  · obtain ⟨⟨name, others⟩, found, same⟩ := map_ok read
    cases same
    trivial

theorem setTerm_valid (valid : Json.FieldsValid expression.values)
    {value : SetValue String Operand}
    (read : expression.setTerm tokens = .ok (value, rest)) : value.Valid := by
  unfold setTerm at read
  split at read
  · simp only at read
    split at read
    · obtain ⟨⟨name, behind⟩, _, read⟩ := bind_ok read
      obtain ⟨behind, _, read⟩ := bind_ok read
      obtain ⟨⟨fallback, behind⟩, here, read⟩ := bind_ok read
      obtain ⟨_, made, read⟩ := bind_ok read
      cases made
      obtain ⟨last, _, same⟩ := bind_ok read
      cases same
      exact operand_valid valid here
    · obtain ⟨⟨⟨first, second⟩, behind⟩, both, read⟩ := bind_ok read
      obtain ⟨_, made, read⟩ := bind_ok read
      cases made
      obtain ⟨last, _, same⟩ := bind_ok read
      cases same
      obtain ⟨⟨left, behind⟩, here, both⟩ := bind_ok both
      obtain ⟨behind, _, both⟩ := bind_ok both
      obtain ⟨⟨right, behind⟩, there, both⟩ := bind_ok both
      cases both
      exact ⟨operand_valid valid here, operand_valid valid there⟩
    · cases read
  · obtain ⟨⟨operand, behind⟩, found, same⟩ := map_ok read
    cases same
    exact operand_valid valid found

theorem setRest_valid {budget : Nat}
    {left value : SetValue String Operand} (holds : left.Valid)
    (read : expression.setRest budget left tokens = .ok (value, rest)) : value.Valid := by
  induction budget generalizing left tokens with
  | zero =>
    cases read
    exact holds
  | succ budget ih =>
    unfold setRest at read
    split at read
    · obtain ⟨⟨right, behind⟩, _, read⟩ := bind_ok read
      have joined : SetValue.Valid (.plus left right) := trivial
      exact ih joined read
    · obtain ⟨⟨right, behind⟩, _, read⟩ := bind_ok read
      have joined : SetValue.Valid (.minus left right) := trivial
      exact ih joined read
    · cases read
      exact holds

theorem action_valid (valid : Json.FieldsValid expression.values) {clause : String}
    {update after : ResolvedUpdate} (holds : update.Valid)
    (read : expression.action clause update tokens = .ok (after, rest)) : after.Valid := by
  unfold action at read
  split at read
  · obtain ⟨⟨name, behind⟩, _, read⟩ := bind_ok read
    obtain ⟨behind, _, read⟩ := bind_ok read
    obtain ⟨⟨value, behind⟩, found, read⟩ := bind_ok read
    cases read
    obtain ⟨⟨left, behind⟩, term, found⟩ := bind_ok found
    refine ⟨fun action member => ?_, holds.add⟩
    obtain before | new := List.mem_append.mp member
    · exact holds.set action before
    · cases List.mem_singleton.mp new
      exact setRest_valid (setTerm_valid valid term) found
  · obtain ⟨⟨name, behind⟩, _, read⟩ := bind_ok read
    cases read
    exact ⟨holds.set, holds.add⟩
  · obtain ⟨⟨name, behind⟩, _, read⟩ := bind_ok read
    obtain ⟨⟨value, behind⟩, found, read⟩ := bind_ok read
    cases read
    refine ⟨holds.set, fun action member => ?_⟩
    obtain before | new := List.mem_append.mp member
    · exact holds.add action before
    · cases List.mem_singleton.mp new
      exact value_valid valid found
  · obtain ⟨⟨name, behind⟩, _, read⟩ := bind_ok read
    obtain ⟨⟨value, behind⟩, _, read⟩ := bind_ok read
    cases read
    exact ⟨holds.set, holds.add⟩
  · cases read

theorem actions_valid (valid : Json.FieldsValid expression.values) {clause : String}
    {budget : Nat} {update after : ResolvedUpdate} (holds : update.Valid)
    (read : expression.actions clause budget update tokens = .ok (after, rest)) :
    after.Valid := by
  induction budget generalizing update tokens with
  | zero =>
    cases read
    exact holds
  | succ budget ih =>
    unfold actions at read
    obtain ⟨⟨middle, behind⟩, found, read⟩ := bind_ok read
    have kept := action_valid valid holds found
    simp only at read
    split at read
    · exact ih kept read
    · cases read
      exact kept

theorem clauses_valid (valid : Json.FieldsValid expression.values) {budget : Nat}
    {update after : ResolvedUpdate} (holds : update.Valid)
    (read : expression.clauses budget update tokens = .ok after) : after.Valid := by
  induction budget generalizing update tokens with
  | zero =>
    unfold clauses at read
    cases read
    exact holds
  | succ budget ih =>
    cases tokens with
    | nil =>
      cases read
      exact holds
    | cons token behind =>
      cases token with
      | word clause =>
        obtain ⟨⟨middle, others⟩, found, read⟩ := bind_ok read
        exact ih (actions_valid valid holds found) read
      | _ => cases read

/-- The values of an update that is read are valid if those of its placeholders are. -/
theorem update_valid (valid : Json.FieldsValid expression.values) {update : ResolvedUpdate}
    (read : expression.update = .ok update) : update.Valid := by
  obtain ⟨tokens, _, read⟩ := bind_ok read
  have start : Update.Valid {} :=
    ⟨fun _ member => absurd member List.not_mem_nil, fun _ member => absurd member List.not_mem_nil⟩
  exact clauses_valid valid start read

end

end Expression

/-! ### Updates -/

/-- Removing a key keeps the entries that removing it without a gap keeps. -/
theorem swapErase_perm {α : Type} (dict : Dict α) (key : String) :
    (dict.swapErase key).Perm (dict.erase key) := by
  induction dict with
  | nil => exact .refl _
  | cons entry rest ih =>
    rw [Dict.swapErase, Dict.erase]
    split
    · cases last : rest.getLast? with
      | none =>
        rw [List.getLast?_eq_none_iff.mp last]
      | some final =>
        obtain ⟨front, rfl⟩ := List.getLast?_eq_some_iff.mp last
        rw [List.dropLast_concat]
        exact (List.perm_append_singleton final front).symm
    · exact ih.cons entry

theorem erase_sublist {α : Type} (dict : Dict α) (key : String) :
    (dict.erase key).Sublist dict := by
  induction dict with
  | nil => exact .refl _
  | cons entry rest ih =>
    rw [Dict.erase]
    split
    · exact List.sublist_cons_self entry rest
    · exact ih.cons_cons entry

namespace WellFormed

variable {item : Item}

theorem empty : WellFormed [] := ⟨List.nodup_nil, trivial⟩

theorem insert (formed : WellFormed item) (name : String) {value : Json} (valid : value.Valid) :
    WellFormed (item.insert name value) := by
  refine ⟨Dict.keys_insert_nodup formed.distinct name value, Json.fieldsValid_iff.mpr ?_⟩
  intro field member
  rcases Dict.mem_insert member with rfl | before
  · exact valid
  · exact Json.fieldsValid_iff.mp formed.valid field before

theorem insertAll {entries : Item} (formed : WellFormed item) (valid : Json.FieldsValid entries) :
    WellFormed (item.insertAll entries) := by
  refine ⟨Dict.keys_insertAll_nodup formed.distinct entries, Json.fieldsValid_iff.mpr ?_⟩
  intro field member
  rcases Dict.mem_insertAll member with new | before
  · exact Json.fieldsValid_iff.mp valid field new
  · exact Json.fieldsValid_iff.mp formed.valid field before

theorem swapErase (formed : WellFormed item) (name : String) :
    WellFormed (item.swapErase name) := by
  have same := swapErase_perm item name
  have part := erase_sublist item name
  refine ⟨?_, Json.fieldsValid_iff.mpr fun field member => ?_⟩
  · exact (same.map Prod.fst).nodup_iff.mpr (formed.distinct.sublist (part.map Prod.fst))
  · exact Json.fieldsValid_iff.mp formed.valid field (part.subset (same.subset member))

theorem removeAll (formed : WellFormed item) (names : List String) :
    WellFormed (names.foldl Dict.swapErase item) := by
  induction names generalizing item with
  | nil => exact formed
  | cons name rest ih => exact ih (formed.swapErase name)

end WellFormed

theorem tagged_valid {type : String} {content : Json} (valid : content.Valid) :
    (Attribute.tagged type content).Valid :=
  ⟨List.nodup_singleton _, valid, trivial⟩

theorem ofFloat_valid (x : Float) : (Attribute.ofFloat x).Valid := tagged_valid trivial

/-- The content of a valid attribute value is valid. -/
theorem typed?_valid {value content : Json} {type : String} (valid : value.Valid)
    (typed : Attribute.typed? value = some (type, content)) : content.Valid := by
  unfold Attribute.typed? at typed
  split at typed
  · cases typed
    exact valid.2.1
  · cases typed

section

variable {item before : Item}

theorem Operand.of_valid (formed : WellFormed item) {operand : Operand} (valid : operand.Valid)
    {value : Json} (done : operand.of item = .ok value) : value.Valid := by
  rcases operand with name | constant
  · simp only [Operand.of] at done
    split at done
    · rename_i found
      cases done
      exact formed.valid.get? found
    · cases done
  · cases done
    exact valid

theorem joinLists_valid {first second value : Json} (valid : first.Valid) (valid' : second.Valid)
    (done : joinLists first second = .ok value) : value.Valid := by
  unfold joinLists at done
  split at done
  · cases done
    refine tagged_valid (Json.itemsValid_iff.mpr fun item member => ?_)
    obtain here | there := List.mem_append.mp member
    · exact Json.itemsValid_iff.mp valid.2.1 item here
    · exact Json.itemsValid_iff.mp valid'.2.1 item there
  · cases done

theorem arithmetic_valid {combine : Float → Float → Float} {first second value : Json}
    (done : arithmetic combine first second = .ok value) : value.Valid := by
  unfold arithmetic at done
  split at done
  · cases done
    exact ofFloat_valid _
  · cases done

theorem SetValue.of_valid (formed : WellFormed item) {source : SetValue String Operand}
    (valid : source.Valid) {value : Json} (done : source.of item = .ok value) : value.Valid := by
  cases source with
  | operand single => exact Operand.of_valid formed valid done
  | ifNotExists name fallback =>
    unfold SetValue.of at done
    split at done
    · rename_i found
      cases done
      exact formed.valid.get? found
    · exact Operand.of_valid formed valid done
  | listAppend first second =>
    obtain ⟨left, here, done⟩ := bind_ok done
    obtain ⟨right, there, done⟩ := bind_ok done
    exact joinLists_valid (Operand.of_valid formed valid.1 here)
      (Operand.of_valid formed valid.2 there) done
  | plus left right | minus left right =>
    obtain ⟨_, _, done⟩ := bind_ok done
    obtain ⟨_, _, done⟩ := bind_ok done
    exact arithmetic_valid done

/-- The members of joined sets come from one of the sets. -/
theorem mem_joinMembers {members extra : List Json} {member : Json}
    (joined : member ∈ joinMembers members extra) : member ∈ members ∨ member ∈ extra := by
  induction extra generalizing members with
  | nil => exact .inl joined
  | cons first rest ih =>
    obtain before | inRest := ih joined
    · simp only at before
      split at before
      · exact .inl before
      · obtain old | new := List.mem_append.mp before
        · exact .inl old
        · exact .inr (List.mem_singleton.mp new ▸ List.mem_cons_self)
    · exact .inr (List.mem_cons_of_mem _ inRest)

theorem added_valid {existing : Option Json} {given value : Json}
    (valid : ∀ found ∈ existing, found.Valid) (valid' : given.Valid)
    (done : added existing given = .ok value) : value.Valid := by
  cases existing with
  | none =>
    cases done
    exact valid'
  | some existing =>
    unfold added at done
    simp only at done
    split at done
    · split at done
      · cases done
        exact ofFloat_valid _
      · cases done
    · rename_i extra _ typed
      split at done
      · split at done
        · rename_i members found
          split at done
          · cases done
            refine tagged_valid (Json.itemsValid_iff.mpr fun member joined => ?_)
            obtain old | new := mem_joinMembers joined
            · exact Json.itemsValid_iff.mp (typed?_valid (valid _ rfl) found) member old
            · exact Json.itemsValid_iff.mp (typed?_valid valid' typed) member new
          · cases done
        · cases done
      · cases done
    · cases done

theorem deleted_valid {existing given : Json} {value : Option Json} (valid : existing.Valid)
    (done : deleted existing given = .ok value) : ∀ kept ∈ value, kept.Valid := by
  unfold deleted at done
  split at done
  · rename_i members _ _ typed _
    split at done
    · cases done
      intro kept member
      split at member
      · cases member
      · cases member
        refine tagged_valid (Json.itemsValid_iff.mpr fun item inKept => ?_)
        exact Json.itemsValid_iff.mp (typed?_valid valid typed) item (List.mem_of_mem_filter inKept)
    · cases done
  · cases done

theorem deleteFrom_wellFormed (formed : WellFormed item) {action : String × Json} {after : Item}
    (done : deleteFrom item action = .ok after) : WellFormed after := by
  unfold deleteFrom at done
  split at done
  · cases done
    exact formed
  · rename_i found
    obtain ⟨value, here, done⟩ := bind_ok done
    have valid := deleted_valid (formed.valid.get? found) here
    cases value with
    | none =>
      cases done
      exact formed.swapErase action.1
    | some kept =>
      cases done
      exact formed.insert action.1 (valid kept rfl)

/-- **An update of a well-formed item gives a well-formed one.** -/
theorem Update.apply_wellFormed {update : Expression.ResolvedUpdate} (valid : update.Valid)
    (formed : WellFormed before) {after : Item} (done : update.apply before = .ok after) :
    WellFormed after := by
  obtain ⟨assigned, set, done⟩ := bind_ok done
  obtain ⟨summed, add, delete⟩ := bind_ok done
  have formedSet : WellFormed assigned := by
    refine foldlM_keeps_of_mem (fun action member => ?_) set formed
    intro item next here holds
    obtain ⟨value, given, same⟩ := bind_ok here
    cases same
    exact holds.insert action.1 (SetValue.of_valid formed (valid.set action member) given)
  have formedRemove : WellFormed (update.remove.foldl Dict.swapErase assigned) :=
    formedSet.removeAll update.remove
  have formedAdd : WellFormed summed := by
    refine foldlM_keeps_of_mem (fun action member => ?_) add formedRemove
    intro item next here holds
    obtain ⟨value, given, same⟩ := bind_ok here
    cases same
    have there : ∀ found ∈ before.get? action.1, found.Valid :=
      fun found read => formed.valid.get? read
    exact holds.insert action.1 (added_valid there (valid.add action member) given)
  exact foldlM_keeps (fun here holds => deleteFrom_wellFormed holds here) delete formedAdd

end

/-! ### Requests -/

/-- The attributes of a valid request are valid. -/
theorem KeyedRequest.attributes_formed {request : Json} {fields : KeyedRequest}
    (valid : request.Valid) (read : KeyedRequest.ofJson? request = some fields) :
    WellFormed fields.attributes := by
  obtain ⟨record, made, read⟩ := Option.bind_eq_some_iff.mp read
  obtain ⟨_, _, read⟩ := Option.bind_eq_some_iff.mp read
  obtain ⟨attributes, given, read⟩ := Option.bind_eq_some_iff.mp read
  obtain ⟨_, _, read⟩ := Option.bind_eq_some_iff.mp read
  obtain ⟨_, _, read⟩ := Option.bind_eq_some_iff.mp read
  cases read
  unfold Json.Record.defaulted at given
  split at given
  · rename_i found
    exact wellFormed_of_fields? (Json.Record.valid_of_get? valid made found) given
  · cases given
    exact .empty

/-- The values of the placeholders of a valid expression are valid. -/
theorem Expression.values_valid {value : Json} {expression : Expression} (valid : value.Valid)
    (read : Expression.ofJson? value = some expression) :
    Json.FieldsValid expression.values := by
  obtain ⟨record, made, read⟩ := Option.bind_eq_some_iff.mp read
  obtain ⟨_, _, read⟩ := Option.bind_eq_some_iff.mp read
  obtain ⟨_, _, read⟩ := Option.bind_eq_some_iff.mp read
  obtain ⟨values, given, read⟩ := Option.bind_eq_some_iff.mp read
  cases read
  unfold Json.Record.defaulted at given
  split at given
  · rename_i found
    exact Json.fields?_valid (Json.Record.valid_of_get? valid made found) given
  · cases given
    trivial

/-- The values of the update of a valid request are valid. -/
theorem KeyedRequest.update_valid {request : Json} {fields : KeyedRequest}
    {update : Expression.ResolvedUpdate} (valid : request.Valid)
    (read : KeyedRequest.ofJson? request = some fields)
    (resolved : Store.updateOf fields = .ok update) : update.Valid := by
  obtain ⟨record, made, read⟩ := Option.bind_eq_some_iff.mp read
  obtain ⟨_, _, read⟩ := Option.bind_eq_some_iff.mp read
  obtain ⟨_, _, read⟩ := Option.bind_eq_some_iff.mp read
  obtain ⟨written, given, read⟩ := Option.bind_eq_some_iff.mp read
  obtain ⟨_, _, read⟩ := Option.bind_eq_some_iff.mp read
  cases read
  simp only [Store.updateOf] at resolved
  split at resolved
  · cases resolved
  · unfold Json.Record.nullable at given
    split at given
    · cases given
    · cases given
    · rename_i _ found
      obtain ⟨expression, made', same⟩ := Option.map_eq_some_iff.mp given
      cases same
      have values := Expression.values_valid (Json.Record.valid_of_get? valid made found) made'
      exact Expression.update_valid values (mapError_ok resolved)

/-! ### Tables -/

/-- What holds of an entry of a table: a well-formed item under the text of a key that it
carries. -/
structure Kept (text : String) (item : Item) : Prop where
  formed : WellFormed item
  under : ∃ key, WellFormed key ∧ text = keyText key ∧ Carries .updateItem item key

/-- What holds of every table. -/
structure Contents.Kept (table : Contents) : Prop extends table.Sound where
  entries : ∀ entry ∈ table.items, Table.Kept entry.1 entry.2

/-- The stores that valid requests lead to from nothing, whatever becomes of them. -/
inductive Built : Store → Prop where
  | empty : Built []
  | create {store : Store} (built : Built store) (name : String) (keyNames : List String) :
      Built (store.createTable name keyNames)
  | request {store : Store} (built : Built store) (name : String) {request : Json}
      (valid : request.Valid) : Built (store.execute name request).2

theorem Carries.weaken {operation : Operation} {item key : Item}
    (carries : Carries operation item key) : Carries .updateItem item key := by
  intro name value given
  obtain ⟨found, read, same | ⟨_, same⟩⟩ := carries name value given
  · exact ⟨found, read, .inl same⟩
  · exact ⟨found, read, .inr ⟨rfl, same⟩⟩

namespace Contents

theorem kept_empty : Contents.Kept {} where
  toSound := sound_empty
  entries _ member := absurd member List.not_mem_nil

namespace Kept

variable {table : Contents}

theorem declare (kept : table.Kept) (keyNames : List String) :
    Contents.Kept { table with keyNames } where
  toSound := ⟨kept.ordered, kept.plain⟩
  entries := kept.entries

theorem learn (kept : table.Kept) (key : Item) : (table.learnKey key).Kept := by
  rw [learnKey]
  split
  · exact kept.declare _
  · exact kept

theorem put (kept : table.Kept) {operation : Operation} {key item : Item} {value : Json}
    (formedKey : WellFormed key) (formed : WellFormed item) (carries : Carries operation item key)
    (plain : plainItem item = .ok value) : (table.store key item).Kept where
  toSound := kept.toSound.put plain
  entries := by
    intro entry member
    rcases Index.mem_insert member with rfl | before
    · exact ⟨formed, key, formedKey, rfl, carries.weaken⟩
    · exact kept.entries entry before

theorem remove (kept : table.Kept) (key : Item) : (table.remove key).Kept where
  toSound := kept.toSound.remove key
  entries entry member := kept.entries entry (Index.mem_of_mem_erase member)

/-- An item is stored under a key as it is. -/
theorem store_injective {key first second : Item}
    (same : table.store key first = table.store key second) : first = second := by
  have read := congrArg (fun table : Contents => table.items.get? (keyText key)) same
  simp only [store, Index.get?_insert_self] at read
  exact Option.some.inj read

theorem putItem (kept : table.Kept) {request : KeyedRequest} (formedKey : WellFormed request.key)
    (formed : WellFormed request.attributes) {result : Json} {after : Contents}
    (done : Store.putItem table request = .ok (result, after)) : after.Kept := by
  obtain ⟨_, _, done⟩ := bind_ok done
  obtain ⟨value, plain, done⟩ := bind_ok done
  cases done
  have carries : Carries .putItem (request.attributes.insertAll request.key) request.key := by
    intro name value given
    refine ⟨value, ?_, .inl rfl⟩
    rw [Dict.get?_insertAll _ formedKey.distinct, given]
    rfl
  exact kept.put formedKey (formed.insertAll formedKey.valid) carries plain

theorem updateItem (kept : table.Kept) {request : KeyedRequest}
    {update : Expression.ResolvedUpdate} (formedKey : WellFormed request.key)
    (valid : update.Valid) {result : Json} {after : Contents}
    (done : Store.updateItem table request update = .ok (result, after)) : after.Kept := by
  obtain ⟨item, plain, carries, rfl⟩ := updateItem_ok done
  obtain ⟨_, _, done⟩ := bind_ok done
  obtain ⟨changed, applied, done⟩ := bind_ok done
  have formedBefore : WellFormed ((table.find? request.key).getD request.key) := by
    cases found : table.find? request.key with
    | none => exact formedKey
    | some existing => exact (kept.entries _ (Index.mem_of_get? found)).formed
  have formed := Update.apply_wellFormed valid formedBefore (mapError_ok applied)
  split at done
  · cases done
  · obtain ⟨value, _, done⟩ := bind_ok done
    have same : changed = item := store_injective (Prod.mk.inj (Except.ok.inj done)).2
    exact kept.put formedKey (same ▸ formed) carries plain

theorem putAll (kept : table.Kept) {items : List Item} (formed : ∀ item ∈ items, WellFormed item) :
    (Store.putAll table items).2.Kept := by
  induction items generalizing table with
  | nil => exact kept
  | cons item rest ih =>
    obtain ⟨first, others⟩ := List.forall_mem_cons.mp formed
    rcases putAll_cons table item with ⟨_, failure, failed⟩ | ⟨key, result, read, plain, done⟩
    · rw [failed]
      exact kept
    · rw [done]
      exact ih (kept.put (first.keyOf read) first (keyOf_carries read .batchPutItem) plain) others

theorem removeAll (kept : table.Kept) (keys : List Item) :
    (Store.removeAll table keys).2.Kept := by
  induction keys generalizing table with
  | nil => exact kept
  | cons key rest ih =>
    rcases removeAll_cons table key rest with ⟨failure, failed⟩ | ⟨result, done⟩
    · rw [failed]
      exact kept.remove key
    · rw [done]
      exact ih (kept.remove key)

end Kept

end Contents

/-! ### Stores -/

/-- Whether all tables of a store hold what they should. -/
def Store.Kept (store : Store) : Prop := ∀ name, (store.table name).Kept

namespace Store.Kept

variable {store : Store}

theorem insert (kept : store.Kept) (name : String) {table : Contents} (here : table.Kept) :
    Store.Kept (Dict.insert store name table) := by
  intro other
  rw [table_insert]
  split
  · exact here
  · exact kept other

theorem of_agree {after : Store} (kept : store.Kept) (agree : after.Agree store) : after.Kept :=
  fun name => agree name ▸ kept name

theorem write (kept : store.Kept) (name : String) {key : Item}
    {change : Contents → Except Failure (Json × Contents)}
    (changes : ∀ {table result after}, table.Kept → change table = .ok (result, after) →
      Contents.Kept after) : Store.Kept (store.write name key change).2 := by
  have learned := (kept name).learn key
  rw [Store.write]
  cases changed : change ((store.table name).learnKey key) with
  | error failure => exact kept.insert name learned
  | ok done => exact kept.insert name (changes learned changed)

theorem deleteItem (kept : store.Kept) (name : String) (request : KeyedRequest) :
    Store.Kept (store.deleteItem name request).2 := by
  cases checked : checkCondition request.condition ((store.table name).find? request.key) with
  | error failure =>
    rw [deleteItem_of_error checked]
    exact kept
  | ok _ =>
    obtain ⟨after, same, agree⟩ := deleteItem_of_ok checked
    rw [same]
    exact (kept.insert name ((kept name).remove request.key)).of_agree agree

theorem batchPut (kept : store.Kept) {tables : BatchRequest}
    (formed : ∀ entry ∈ tables, ∀ item ∈ entry.2, WellFormed item) :
    Store.Kept (store.batchPut tables).2 := by
  induction tables generalizing store with
  | nil => exact kept
  | cons entry rest ih =>
    obtain ⟨name, items⟩ := entry
    obtain ⟨first, others⟩ := List.forall_mem_cons.mp formed
    have here := kept.insert name ((kept name).putAll first)
    rw [batchPut_cons]
    split
    · exact here
    · exact ih here others

theorem batchDelete (kept : store.Kept) (tables : BatchRequest) :
    Store.Kept (store.batchDelete tables).2 := by
  induction tables generalizing store with
  | nil => exact kept
  | cons entry rest ih =>
    obtain ⟨name, keys⟩ := entry
    obtain ⟨middle, agree, same⟩ := batchDelete_cons store name keys rest
    have here := (kept.insert name ((kept name).removeAll keys)).of_agree agree
    rw [same]
    split
    · exact here
    · exact ih here

theorem andThen {α : Type} (kept : store.Kept) {read : Except Failure α}
    {next : α → Except Failure Json × Store}
    (goes : ∀ fields, read = .ok fields → Store.Kept (next fields).2) :
    Store.Kept (store.andThen read next).2 := by
  cases done : read with
  | error failure => exact kept
  | ok fields => exact goes fields done

theorem perform (kept : store.Kept) (name : String) (operation : Operation) {request : Json}
    (valid : request.Valid) : Store.Kept (store.perform name operation request).2 := by
  cases operation with
  | getItem | query | scan | batchGetItem => exact kept.andThen fun _ _ => kept
  | putItem =>
    refine kept.andThen fun fields read => kept.write name fun here done => ?_
    have given := fieldsOf_ok read
    exact here.putItem (KeyedRequest.key_formed valid given)
      (KeyedRequest.attributes_formed valid given) done
  | updateItem =>
    refine kept.andThen fun fields read => kept.andThen fun update resolved =>
      kept.write name fun here done => ?_
    have given := fieldsOf_ok read
    exact here.updateItem (KeyedRequest.key_formed valid given)
      (KeyedRequest.update_valid valid given resolved) done
  | deleteItem => exact kept.andThen fun fields _ => kept.deleteItem name fields
  | batchPutItem =>
    refine kept.andThen fun tables read => ?_
    exact kept.batchPut (BatchRequest.items_formed valid (fieldsOf_ok read))
  | batchDeleteItem => exact kept.andThen fun tables _ => kept.batchDelete tables

theorem execute (kept : store.Kept) (name : String) {request : Json} (valid : request.Valid) :
    Store.Kept (store.execute name request).2 := by
  rw [Store.execute]
  split
  · exact kept
  · split
    · exact kept.perform name _ valid
    · exact kept

end Store.Kept

/-- **What is stored is well-formed** and stands under the text of a key that it carries. -/
theorem Built.kept {store : Store} (built : Built store) : store.Kept := by
  induction built with
  | empty => exact fun _ => Contents.kept_empty
  | create built name keyNames ih => exact ih.insert name ((ih name).declare _)
  | request built name valid ih => exact ih.execute name valid

end FieldResolver.Table
