/-
**Listings.**

A request for a page of a table's items is in order if it can be read, its expressions can be
parsed, a query has one, and its token stands for an offset. Then it lists candidates: the items for
which the query holds, in the direction asked for. The page has those from the offset on, as many as
the limit says, that pass the filter.

* `Lists`: what a request lists if it is in order;
* `Expression.condition_of_test`: the condition of an expression that is one test;
* `Listing.page_ok`: the page of a table whose items have plain forms;
* `Lists.execute_eq`, `asksFor_of_list`: a request is answered by the page that it lists, and only
  if it is in order.
-/

import FieldResolver.Proofs.Table.Failure

namespace FieldResolver.Table

open Fallible

/-- What a request for a page asks for. -/
structure Listing where
  query : Option (Condition String Operand)
  filter : Option (Condition String Operand)
  forward : Bool
  offset : Nat
  limit : Option Nat

/-- The condition that an expression writes; without an expression there is none. -/
def conditionOf : Option Expression → Except Failure (Option (Condition String Operand))
  | some expression => (expression.condition.mapError .expression).map some
  | none => .ok none

/-- An expression that is one test writes what the test is read as. -/
theorem Expression.condition_of_test {expression : Expression} {function : String}
    {rest : List Token} {formula : Condition String Operand}
    (split : expression.tokens = .ok (.word function :: .openParen :: rest))
    (plain : isKeyword "NOT" function = false)
    (read : expression.test function rest = .ok (formula, [])) :
    expression.condition = .ok formula := by
  have noNot : afterKeyword? "NOT" (.word function :: .openParen :: rest) = none := by
    rw [afterKeyword?, plain]
    rfl
  have negation (budget : Nat) : expression.negation (budget + 2)
      (.word function :: .openParen :: rest) = .ok (formula, []) := by
    rw [Expression.negation, noNot, primary]
    exact read
  have conjunction (budget : Nat) : expression.conjunction (budget + 3)
      (.word function :: .openParen :: rest) = .ok (formula, []) := by
    rw [Expression.conjunction, negation]
    show expression.conjunctionRest (budget + 2) formula [] = _
    rw [conjunctionRest]
    rfl
  have disjunction (budget : Nat) : expression.disjunction (budget + 4)
      (.word function :: .openParen :: rest) = .ok (formula, []) := by
    rw [Expression.disjunction, conjunction]
    show expression.disjunctionRest (budget + 3) formula [] = _
    rw [disjunctionRest]
    rfl
  rw [condition, split]
  show (expression.disjunction (6 * (rest.length + 2) + 2 + 4) _ >>= _) = _
  rw [disjunction]
  rfl

/-- Whether the fields of a request ask for a page. -/
structure ListRequest.AsksFor (fields : ListRequest) (listing : Listing) : Prop where
  query : conditionOf fields.query = .ok listing.query
  filter : conditionOf fields.filter = .ok listing.filter
  forward : fields.forward = listing.forward
  offset : offsetOf fields.nextToken = .ok listing.offset
  limit : fields.limit = listing.limit

/-- Whether a request for a page has the query that its operation requires. -/
def ListRequest.Queries (fields : ListRequest) (operation : Operation) : Prop :=
  operation = .query → fields.query ≠ none

/-- Whether a request lists a page of items. -/
inductive Lists (request : Json) (listing : Listing) : Prop where
  | intro {operation : Operation} {fields : ListRequest}
      (named : operation? request = some operation)
      (pages : operation = .query ∨ operation = .scan)
      (read : ListRequest.ofJson? request = some fields)
      (queries : fields.Queries operation) (asks : fields.AsksFor listing)

namespace Listing

/-- The items of a table that a listing goes through. -/
def candidates (listing : Listing) (table : Contents) : List Item :=
  Table.candidates table.items.values listing.query listing.forward

/-- Whether an item passes the filter of a listing. -/
def passes (listing : Listing) (item : Item) : Bool :=
  listing.filter.all fun condition => condition.holds item

/-- Where the page of a listing ends. -/
def last (listing : Listing) (table : Contents) : Nat :=
  match listing.limit with
  | some limit => min (listing.offset + limit) (listing.candidates table).length
  | none => (listing.candidates table).length

/-- The candidates that the page of a listing looks at. -/
def scanned (listing : Listing) (table : Contents) : List Item :=
  ((listing.candidates table).take (listing.last table)).drop listing.offset

/-- The page of a listing. -/
def page (listing : Listing) (table : Contents) : Except Failure Page :=
  Table.page (listing.candidates table) listing.filter listing.offset listing.limit

/-- Candidates are the items of the table for which the query holds. -/
theorem mem_candidates {listing : Listing} {table : Contents} {item : Item} :
    item ∈ listing.candidates table ↔ item ∈ table.items.values ∧
      listing.query.all (fun condition => condition.holds item) = true := by
  obtain ⟨query, filter, forward, offset, limit⟩ := listing
  unfold candidates Table.candidates
  cases query <;> cases forward <;> simp

/-- The page of a table whose items have plain forms. -/
theorem page_ok (listing : Listing) {table : Contents} (sound : table.Sound) :
    ∃ items, ((listing.scanned table).filter listing.passes).mapM plainItem = .ok items ∧
      listing.page table = .ok
        { items, scanned := (listing.scanned table).length
          next := if listing.last table < (listing.candidates table).length then
            some (listing.last table) else none } := by
  have each : ∀ item ∈ (listing.scanned table).filter listing.passes,
      ∃ value, plainItem item = .ok value := by
    intro item member
    have candidate := List.mem_of_mem_take (List.mem_of_mem_drop (List.mem_of_mem_filter member))
    obtain ⟨entry, stored, rfl⟩ := List.mem_map.mp (mem_candidates.mp candidate).1
    exact sound.plain entry stored
  obtain ⟨items, read⟩ := mapM_ok each
  refine ⟨items, read, ?_⟩
  show (((listing.scanned table).filter listing.passes).mapM plainItem >>= fun items => _) = _
  rw [read]
  rfl

end Listing

/-! ### Requests that list -/

section

variable {store : Store} {name : String} {fields : ListRequest} {operation : Operation}

theorem Store.list_of_queries (queries : fields.Queries operation) :
    store.list name operation fields = (do
      let query ← conditionOf fields.query
      let filter ← conditionOf fields.filter
      let offset ← offsetOf fields.nextToken
      return (← (Listing.mk query filter fields.forward offset fields.limit).page
        (store.table name)).json) := by
  have scans : fields.query = none → operation ≠ .query := fun none same => queries same none
  obtain ⟨query, filter, limit, token, forward⟩ := fields
  unfold Store.list
  cases query with
  | some expression => cases filter <;> rfl
  | none =>
    simp only [if_neg (scans rfl)]
    cases filter <;> rfl

theorem Store.list_of_not_queries (missing : ¬ fields.Queries operation) :
    store.list name operation fields = .error .queryMissing := by
  obtain ⟨same, none⟩ := Classical.not_imp.mp missing
  unfold Store.list
  rw [not_not.mp none, same]
  rfl

/-- A page that is asked for in order is answered. -/
theorem ListRequest.AsksFor.list_eq {listing : Listing} (asks : fields.AsksFor listing)
    (queries : fields.Queries operation) :
    store.list name operation fields = (listing.page (store.table name)).map Page.json := by
  rw [Store.list_of_queries queries, asks.query, asks.filter, asks.offset, asks.forward, asks.limit]
  show (listing.page (store.table name) >>= fun page => .ok page.json) = _
  cases listing.page (store.table name) <;> rfl

/-- A page that is answered was asked for in order. -/
theorem asksFor_of_list {answer : Json} (done : store.list name operation fields = .ok answer) :
    fields.Queries operation ∧ ∃ listing, fields.AsksFor listing := by
  by_cases queries : fields.Queries operation
  · rw [Store.list_of_queries queries] at done
    obtain ⟨query, readQuery, done⟩ := bind_ok done
    obtain ⟨filter, readFilter, done⟩ := bind_ok done
    obtain ⟨offset, readOffset, _⟩ := bind_ok done
    exact ⟨queries, ⟨query, filter, fields.forward, offset, fields.limit⟩,
      readQuery, readFilter, rfl, readOffset, rfl⟩
  · rw [Store.list_of_not_queries queries] at done
    cases done

/-- A request for a page that can be read is answered by its page and leaves the store alone. -/
theorem Store.execute_list (store : Store) (name : String) {request : Json}
    (named : operation? request = some operation) (pages : operation = .query ∨ operation = .scan)
    (read : ListRequest.ofJson? request = some fields) :
    store.execute name request = (store.list name operation fields, store) := by
  rw [execute_eq_perform store name named]
  rcases pages with rfl | rfl
  all_goals
    rw [perform, fieldsOf, read]
    rfl

/-- **A request is answered by the page that it lists.** -/
theorem Lists.execute_eq {request : Json} {listing : Listing} (lists : Lists request listing)
    (store : Store) (name : String) :
    store.execute name request = ((listing.page (store.table name)).map Page.json, store) := by
  obtain ⟨named, pages, read, queries, asks⟩ := lists
  rw [Store.execute_list store name named pages read, asks.list_eq queries]

end

end FieldResolver.Table
