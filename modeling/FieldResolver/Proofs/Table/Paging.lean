/-
**Paging.**

A client asks for a page of a listing and goes on at the token of every page until one has none. The
pages together are the listing from the start as far as the limits reach: every page looks at the
candidates right behind those of the page before, so that none is lost or shown twice.

* `pageRequest`, `Store.pagesFrom`: the requests of a client that follows the tokens;
* `Lists.turned`: the page that such a request lists;
* `Listing.Covers`: what the pages have in common with the listing;
* `Lists.covers`: pages that start at an offset cover the listing from there;
* `Reached.pages_of_listing`: so it is from the start, in every store that requests lead to.
-/

import FieldResolver.Proofs.Decimal.Text
import FieldResolver.Proofs.Table.Listing
import FieldResolver.Proofs.Table.Reached

namespace FieldResolver.Table

open Fallible

/-- The fields of a request for a page, with a limit and the token of the page before. -/
def pageFields (base : Dict Json) (limit : Option Nat) (token : Option String) : Dict Json :=
  (base.insert "limit" (Json.ofOption (limit.map fun count : Nat => .int count))).insert
    "nextToken" (Json.ofOption (token.map .string))

/-- A request for a page, with a limit and the token of the page before. -/
def pageRequest (base : Dict Json) (limit : Option Nat) (token : Option String) : Json :=
  .object (pageFields base limit token)

/-- The token that an answer gives for the next page. -/
def nextToken? : Except Failure Json → Option String
  | .ok answer => (answer.field? "nextToken").bind Json.string?
  | .error _ => none

/-- The answers to a client that follows the tokens from page to page, with a limit for each. -/
def Store.pagesFrom (store : Store) (name : String) (base : Dict Json) (token : Option String) :
    List Nat → List (Except Failure Json)
  | [] => []
  | limit :: limits =>
    let (answer, after) := store.execute name (pageRequest base (some limit) token)
    answer :: match nextToken? answer with
      | some next => after.pagesFrom name base (some next) limits
      | none => []

/-- The part of a listing from an offset on. -/
def Listing.part (listing : Listing) (offset : Nat) (limit : Option Nat) : Listing :=
  { listing with offset, limit }

/-- Pages of a listing from an offset on, with a limit for each page until one has no token: they
show what passes the filter among the candidates that the limits reach, and the first page behind
which there are no candidates is the one without a token. -/
structure Listing.Covers (listing : Listing) (table : Contents) (offset : Nat) (limits : List Nat)
    (pages : List Page) : Prop where
  items : ((((listing.candidates table).take
      (min (offset + limits.sum) (listing.candidates table).length)).drop offset).filter
        listing.passes).mapM plainItem = .ok (pages.flatMap Page.items)
  scanned : offset + (pages.map Page.scanned).sum =
    min (offset + limits.sum) (listing.candidates table).length
  next : ∀ front page back, pages = front ++ page :: back →
    (page.next = none ↔
      offset + (front.map Page.scanned).sum + page.scanned = (listing.candidates table).length)

/-! ### Requests for pages -/

/-- Whether names are repeated among fields depends on the keys of the fields. -/
theorem distinct_congr {names : List String} {first second : Dict Json}
    (same : Dict.keys first = Dict.keys second) :
    Json.Record.distinct names first = Json.Record.distinct names second := by
  have count (fields : Dict Json) (name : String) :
      (fields.filter fun field => field.1 == name).length = (Dict.keys fields).count name := by
    rw [← List.countP_eq_length_filter, List.count, Dict.keys, List.countP_map]
    rfl
  unfold Json.Record.distinct
  simp only [count, same]

section

variable {base : Dict Json} {limit : Option Nat} {token : Option String}

theorem small_none : ∀ count ∈ (none : Option Nat), count < 2 ^ 64 := fun _ none => nomatch none

theorem get?_pageFields {name : String} (limits : "limit" ≠ name) (tokens : "nextToken" ≠ name) :
    (pageFields base limit token).get? name = base.get? name := by
  rw [pageFields, Dict.get?_insert, if_neg tokens, Dict.get?_insert, if_neg limits]

/-- The limit of a page is read if it is a machine word. -/
theorem nullable_limit (small : ∀ count ∈ limit, count < 2 ^ 64) :
    Json.Record.nullable ⟨pageFields base limit token, false⟩ "limit" Json.nat? = some limit := by
  rw [Json.Record.nullable, pageFields, Dict.get?_insert, if_neg (by decide), Dict.get?_insert,
    if_pos rfl]
  cases limit with
  | none => rfl
  | some count =>
    have bound : count < 2 ^ 64 := small count rfl
    have range : (0 : Int) ≤ count ∧ (count : Int) ≤ Json.maxNat := by
      unfold Json.maxNat
      omega
    exact congrArg (Option.map some) (if_pos range)

theorem nullable_token :
    Json.Record.nullable ⟨pageFields base limit token, false⟩ "nextToken" Json.string? =
      some token := by
  rw [Json.Record.nullable, pageFields, Dict.get?_insert, if_pos rfl]
  cases token <;> rfl

/-- A request for a page asks for the same as the request for all items, apart from its limit and
its token. -/
theorem ofJson?_pageRequest (small : ∀ count ∈ limit, count < 2 ^ 64) :
    ListRequest.ofJson? (pageRequest base limit token) =
      (ListRequest.ofJson? (pageRequest base none none)).map fun fields =>
        { fields with limit, nextToken := token } := by
  have keys : Dict.keys (pageFields base limit token) = Dict.keys (pageFields base none none) :=
    Dict.keys_insert_congr (Dict.keys_insert_congr rfl "limit" _ _) "nextToken" _ _
  rw [ListRequest.ofJson?, ListRequest.ofJson?, pageRequest, pageRequest, Json.Record.ofJson?,
    Json.Record.ofJson?, Json.Record.ofObject?, Json.Record.ofObject?, distinct_congr keys]
  split
  · simp only [Option.bind_eq_bind, Option.bind_some, nullable_limit small,
      nullable_limit small_none, nullable_token]
    simp (disch := decide) only [Json.Record.nullable, Json.Record.defaulted, get?_pageFields,
      Option.map_bind, Function.comp_def, Option.map_some]
  · rfl

theorem operation?_pageRequest :
    operation? (pageRequest base limit token) = operation? (pageRequest base none none) := by
  have same : (pageRequest base limit token).field? "operation" =
      (pageRequest base none none).field? "operation" := by
    show (pageFields base limit token).get? _ = (pageFields base none none).get? _
    rw [get?_pageFields (by decide) (by decide), get?_pageFields (by decide) (by decide)]
  rw [operation?, same, operation?]

variable {listing : Listing}

/-- The request for all items starts at the first and has no limit. -/
theorem Lists.unlimited (lists : Lists (pageRequest base none none) listing) :
    listing.offset = 0 ∧ listing.limit = none := by
  obtain ⟨_, _, read, _, asks⟩ := lists
  rw [ofJson?_pageRequest small_none] at read
  obtain ⟨fields, _, rfl⟩ := Option.map_eq_some_iff.mp read
  exact ⟨(Except.ok.inj asks.offset).symm, asks.limit.symm⟩

/-- A request for a page lists the part of the listing behind its token. -/
theorem Lists.turned (lists : Lists (pageRequest base none none) listing)
    (small : ∀ count ∈ limit, count < 2 ^ 64) {offset : Nat}
    (stands : offsetOf token = .ok offset) :
    Lists (pageRequest base limit token) (listing.part offset limit) := by
  obtain ⟨named, pages, read, queries, asks⟩ := lists
  exact .intro (operation?_pageRequest.trans named) pages
    ((ofJson?_pageRequest small).trans (congrArg _ read)) queries
    ⟨asks.query, asks.filter, asks.forward, stands, rfl⟩

end

/-! ### Following the tokens -/

theorem offsetOf_none : offsetOf none = .ok 0 := rfl

/-- The offset that the token of a page stands for. -/
theorem offsetOf_intText {offset : Nat} (small : offset < 2 ^ 64) :
    offsetOf (some (Decimal.intText (offset : Int))) = .ok offset := by
  rw [offsetOf]
  simp only [Decimal.nat?_intText small]

theorem nextToken?_page (page : Page) :
    nextToken? (.ok page.json) =
      page.next.map fun offset => Decimal.intText (offset : Int) := by
  obtain ⟨items, scanned, next⟩ := page
  cases next <;> rfl

/-- A part of a list in two pieces. -/
theorem drop_take_split {α : Type} (items : List α) {first middle last : Nat}
    (before : first ≤ middle) (after : middle ≤ last) :
    (items.take last).drop first =
      (items.take middle).drop first ++ (items.take last).drop middle := by
  obtain ⟨count, rfl⟩ := Nat.exists_eq_add_of_le before
  have piece : ((items.take last).drop first).take count =
      (items.take (first + count)).drop first := by
    rw [List.take_drop, List.take_take, min_eq_left after]
  rw [← piece, ← List.drop_drop, List.take_append_drop]

section

variable {listing : Listing} {table : Contents}

@[simp] theorem Listing.candidates_part {offset : Nat} {limit : Option Nat} :
    (listing.part offset limit).candidates table = listing.candidates table := rfl

@[simp] theorem Listing.last_part {offset limit : Nat} :
    (listing.part offset (some limit)).last table =
      min (offset + limit) (listing.candidates table).length := rfl

@[simp] theorem Listing.scanned_part {offset : Nat} {limit : Option Nat} :
    (listing.part offset limit).scanned table =
      ((listing.candidates table).take ((listing.part offset limit).last table)).drop offset := rfl

/-- There are no more candidates than items. -/
theorem Listing.length_candidates_le (listing : Listing) (table : Contents) :
    (listing.candidates table).length ≤ table.items.length := by
  obtain ⟨query, filter, forward, offset, limit⟩ := listing
  have values : table.items.values.length = table.items.length := List.length_map _
  rw [← values]
  unfold Listing.candidates Table.candidates
  cases query <;> cases forward <;> simp [List.length_filter_le]

variable {offset limit : Nat}

/-- A page behind which there are candidates. -/
theorem Listing.page_more (sound : table.Sound)
    (more : offset + limit < (listing.candidates table).length) :
    ∃ items, ((((listing.candidates table).take (offset + limit)).drop offset).filter
        listing.passes).mapM plainItem = .ok items ∧
      (listing.part offset (some limit)).page table =
        .ok { items, scanned := limit, next := some (offset + limit) } := by
  obtain ⟨items, shown, page⟩ := (listing.part offset (some limit)).page_ok sound
  have length :
      (((listing.candidates table).take (offset + limit)).drop offset).length = limit := by
    rw [List.length_drop, List.length_take_of_le (Nat.le_of_lt more), Nat.add_sub_cancel_left]
  rw [scanned_part, last_part, min_eq_left (Nat.le_of_lt more)] at shown page
  rw [candidates_part, if_pos more, length] at page
  exact ⟨items, shown, page⟩

/-- A page behind which there are no candidates. -/
theorem Listing.page_last (sound : table.Sound)
    (reaches : (listing.candidates table).length ≤ offset + limit) :
    ∃ items, (((listing.candidates table).drop offset).filter listing.passes).mapM plainItem =
        .ok items ∧
      (listing.part offset (some limit)).page table =
        .ok { items, scanned := (listing.candidates table).length - offset, next := none } := by
  obtain ⟨items, shown, page⟩ := (listing.part offset (some limit)).page_ok sound
  rw [scanned_part, last_part, min_eq_right reaches, List.take_length] at shown page
  rw [candidates_part, if_neg (Nat.lt_irrefl _), List.length_drop] at page
  exact ⟨items, shown, page⟩

variable {limits : List Nat} {items : List Json} {pages : List Page}

/-- Without limits there are no pages. -/
theorem Listing.Covers.nil (within : offset ≤ (listing.candidates table).length) :
    listing.Covers table offset [] [] where
  items := by
    rw [List.sum_nil, Nat.add_zero, min_eq_left within, List.drop_eq_nil_of_le]
    · rfl
    · exact List.length_take_le _ _
  scanned := (min_eq_left within).symm
  next := fun front _ _ same =>
    absurd same.symm (List.append_ne_nil_of_right_ne_nil front (List.cons_ne_nil _ _))

/-- The last page has no token. -/
theorem Listing.Covers.last (reaches : (listing.candidates table).length ≤ offset + limit)
    (within : offset ≤ (listing.candidates table).length)
    (shown : (((listing.candidates table).drop offset).filter listing.passes).mapM plainItem =
      .ok items) :
    listing.Covers table offset (limit :: limits)
      [{ items, scanned := (listing.candidates table).length - offset, next := none }] where
  items := by
    rw [List.sum_cons, min_eq_right (by omega), List.take_length, shown, List.flatMap_singleton]
  scanned := by
    rw [List.sum_cons, min_eq_right (by omega)]
    exact Nat.add_sub_cancel' within
  next := by
    intro front page back same
    cases front with
    | nil =>
      cases same
      exact iff_of_true rfl (Nat.add_sub_cancel' within)
    | cons first front => exact absurd (List.cons.inj same).2 (by simp)

/-- A page with a token is followed by the pages from there on. -/
theorem Listing.Covers.cons (more : offset + limit < (listing.candidates table).length)
    (shown : ((((listing.candidates table).take (offset + limit)).drop offset).filter
      listing.passes).mapM plainItem = .ok items)
    (rest : listing.Covers table (offset + limit) limits pages) :
    listing.Covers table offset (limit :: limits)
      ({ items, scanned := limit, next := some (offset + limit) } :: pages) where
  items := by
    rw [List.sum_cons, ← Nat.add_assoc, List.flatMap_cons,
      drop_take_split _ (Nat.le_add_right offset limit) (by omega), List.filter_append]
    exact mapM_append_ok shown rest.items
  scanned := by
    rw [List.sum_cons, ← Nat.add_assoc, ← rest.scanned, List.map_cons, List.sum_cons, Nat.add_assoc]
  next := by
    intro front page back same
    cases front with
    | nil =>
      cases same
      exact iff_of_false (fun none => nomatch none) (Nat.ne_of_lt more)
    | cons first front =>
      cases same
      rw [rest.next front page back rfl, List.map_cons, List.sum_cons, ← Nat.add_assoc]

/-- If the limits reach the end of the listing, the last page has no token. -/
theorem Listing.Covers.ends (covers : listing.Covers table offset limits pages)
    (reaches : (listing.candidates table).length ≤ offset + limits.sum) (nonempty : pages ≠ []) :
    ∃ front last, pages = front ++ [last] ∧ last.next = none := by
  obtain ⟨front, last, ends⟩ := (List.eq_nil_or_concat pages).resolve_left nonempty
  rw [List.concat_eq_append] at ends
  refine ⟨front, last, ends, (covers.next front last [] ends).mpr ?_⟩
  have scanned := covers.scanned
  rwa [min_eq_right reaches, ends, List.map_append, List.sum_append, List.map_singleton,
    List.sum_singleton, ← Nat.add_assoc] at scanned

end

section

variable {store : Store} {name : String} {base : Dict Json} {listing : Listing}

/-- A page and the pages behind it. -/
theorem Store.pagesFrom_cons {token : Option String} {limit : Nat} {page : Page}
    (answer : store.execute name (pageRequest base (some limit) token) = (.ok page.json, store))
    (limits : List Nat) :
    store.pagesFrom name base token (limit :: limits) =
      .ok page.json :: match page.next with
        | some offset => store.pagesFrom name base (some (Decimal.intText (offset : Int))) limits
        | none => [] := by
  rw [pagesFrom, answer]
  show _ :: (match nextToken? (.ok page.json) with
    | some next => store.pagesFrom name base (some next) limits
    | none => []) = _
  rw [nextToken?_page]
  cases page.next <;> rfl

/-- There is a page as soon as there is a limit. -/
theorem Store.pagesFrom_ne_nil {token : Option String} {limits : List Nat} (some : limits ≠ []) :
    store.pagesFrom name base token limits ≠ [] := by
  cases limits with
  | nil => exact absurd rfl some
  | cons limit limits =>
    rw [pagesFrom]
    exact List.cons_ne_nil _ _

/-- **Pages that start at an offset cover the listing from there.** -/
theorem Lists.covers (lists : Lists (pageRequest base none none) listing) (sound : store.Sound)
    (small : store.size name < 2 ^ 64) {limits : List Nat}
    (words : ∀ limit ∈ limits, limit < 2 ^ 64)
    {token : Option String} {offset : Nat} (stands : offsetOf token = .ok offset)
    (within : offset ≤ (listing.candidates (store.table name)).length) :
    ∃ pages, store.pagesFrom name base token limits = pages.map (fun page => .ok page.json) ∧
      listing.Covers (store.table name) offset limits pages := by
  induction limits generalizing token offset with
  | nil => exact ⟨[], rfl, .nil within⟩
  | cons limit limits ih =>
    obtain ⟨word, words⟩ := List.forall_mem_cons.mp words
    have answer := (lists.turned (fun _ same => Option.some.inj same ▸ word) stands :
      Lists (pageRequest base (some limit) token) _).execute_eq store name
    by_cases more : offset + limit < (listing.candidates (store.table name)).length
    · obtain ⟨items, shown, page⟩ := Listing.page_more (sound name) more
      have size := listing.length_candidates_le (store.table name)
      have next : offsetOf (some (Decimal.intText ((offset + limit : Nat) : Int))) =
          .ok (offset + limit) :=
        offsetOf_intText (lt_trans more (lt_of_le_of_lt size small))
      obtain ⟨pages, answers, covers⟩ := ih words next (Nat.le_of_lt more)
      rw [page] at answer
      refine ⟨_, ?_, .cons more shown covers⟩
      rw [Store.pagesFrom_cons answer, List.map_cons, ← answers]
    · obtain ⟨items, shown, page⟩ := Listing.page_last (sound name) (Nat.le_of_not_lt more)
      rw [page] at answer
      exact ⟨[_], Store.pagesFrom_cons answer limits, .last (Nat.le_of_not_lt more) within shown⟩

/-- The page of all items. -/
theorem Lists.whole (lists : Lists (pageRequest base none none) listing) (sound : store.Sound) :
    ∃ items, ((listing.candidates (store.table name)).filter listing.passes).mapM plainItem =
        .ok items ∧
      store.execute name (pageRequest base none none) =
        (.ok (Page.mk items (listing.candidates (store.table name)).length none).json, store) := by
  obtain ⟨items, shown, page⟩ := listing.page_ok (sound name)
  obtain ⟨start, unlimited⟩ := lists.unlimited
  have last : listing.last (store.table name) = (listing.candidates (store.table name)).length := by
    rw [Listing.last, unlimited]
  have scanned : listing.scanned (store.table name) = listing.candidates (store.table name) := by
    rw [Listing.scanned, last, start, List.take_length, List.drop_zero]
  rw [scanned] at shown page
  rw [last, if_neg (Nat.lt_irrefl _)] at page
  refine ⟨items, shown, ?_⟩
  rw [lists.execute_eq, page]
  rfl

/-- Without a query all items are candidates, from the last on if the listing goes backwards. -/
theorem Listing.candidates_of_scan (scans : listing.query = none) (table : Contents) :
    listing.candidates table =
      if listing.forward then table.items.values else table.items.values.reverse := by
  rw [candidates, scans]
  rfl

/-- Without a filter all candidates are shown. -/
theorem Listing.passes_of_no_filter (all : listing.filter = none) (items : List Item) :
    items.filter listing.passes = items :=
  List.filter_eq_self.mpr fun _ _ => by rw [passes, all]; rfl

/-- **The pages of a listing.** Whoever follows the tokens from page to page sees the listing from
the start, as far as the limits reach: in its order, nothing lost and nothing twice. The page behind
which there is nothing left is the one without a token. With positive limits it comes and the pages
are the whole listing, which without a query and a filter has every item once.

Offsets are machine words, and so is the number of items. -/
theorem Reached.pages_of_listing (reached : Reached store) (small : store.size name < 2 ^ 64)
    (lists : Lists (pageRequest base none none) listing) :
    ∃ whole : Page,
      store.execute name (pageRequest base none none) = (.ok whole.json, store) ∧
      whole.next = none ∧
      whole.scanned = (listing.candidates (store.table name)).length ∧
      ((listing.candidates (store.table name)).filter listing.passes).mapM plainItem =
        .ok whole.items ∧
      (listing.query = none → listing.filter = none →
        whole.scanned = store.size name ∧ ((store.table name).items.map Prod.fst).Nodup ∧
        (if listing.forward then (store.table name).items.values
          else (store.table name).items.values.reverse).mapM plainItem = .ok whole.items) ∧
      ∀ limits : List Nat, (∀ limit ∈ limits, limit < 2 ^ 64) →
        ∃ pages, store.pagesFrom name base none limits = pages.map (fun page => .ok page.json) ∧
          listing.Covers (store.table name) 0 limits pages ∧
          (limits ≠ [] → (∀ limit ∈ limits, 0 < limit) →
            (listing.candidates (store.table name)).length ≤ limits.length →
            pages.flatMap Page.items = whole.items ∧
              ∃ front last, pages = front ++ [last] ∧ last.next = none) := by
  obtain ⟨items, shown, answer⟩ := lists.whole reached.sound
  refine ⟨_, answer, rfl, rfl, shown, fun scans all => ⟨?_, ?_, ?_⟩, fun limits words => ?_⟩
  · show (listing.candidates (store.table name)).length = (store.table name).items.length
    rw [Listing.candidates_of_scan scans]
    split
    · exact List.length_map _
    · exact List.length_reverse.trans (List.length_map _)
  · exact (reached.sound name).ordered.imp fun before => ne_of_lt before
  · rwa [← Listing.candidates_of_scan scans,
      ← Listing.passes_of_no_filter all (listing.candidates _)]
  · obtain ⟨pages, answers, covers⟩ :=
      lists.covers reached.sound small words offsetOf_none (Nat.zero_le _)
    refine ⟨pages, answers, covers, fun some positive enough => ?_⟩
    have reaches : (listing.candidates (store.table name)).length ≤ 0 + limits.sum := by
      rw [Nat.zero_add]
      exact enough.trans (List.length_le_sum_of_one_le limits positive)
    have nonempty : pages ≠ [] := by
      rintro rfl
      exact Store.pagesFrom_ne_nil some answers
    have covered := covers.items
    rw [min_eq_right reaches, List.take_length, List.drop_zero, shown] at covered
    exact ⟨(Except.ok.inj covered).symm, covers.ends reaches nonempty⟩

end

/-! ### Three items in pages of two -/

namespace Posts

/-- A put. -/
def put (id : String) (attributes : Item) : Json :=
  .object
    [("operation", .string "PutItem"), ("key", .object [("id", Attribute.tagged "S" (.string id))]),
      ("attributeValues", .object attributes)]

/-- A title. -/
def title (text : String) : Item := [("title", Attribute.tagged "S" (.string text))]

/-- The store with three items, of which the second has no title. -/
def store : Store :=
  (((Store.execute [] "posts" (put "1" (title "a"))).2.execute "posts" (put "2" [])).2.execute
    "posts" (put "3" (title "c"))).2

/-- A scan for titles from the last item on. -/
def scan : Dict Json :=
  [("operation", .string "Scan"), ("scanIndexForward", .bool false),
    ("filter", .object [("expression", .string "attribute_exists(title)")])]

/-- What the scan lists. -/
def listing : Listing where
  query := none
  filter := some (.present "title")
  forward := false
  offset := 0
  limit := none

theorem reached : Reached store :=
  ((Reached.empty.request "posts" _).request "posts" _).request "posts" _

theorem lists : Lists (pageRequest scan none none) listing := by
  have parsed : Expression.condition { text := "attribute_exists(title)" } =
      .ok (.present "title") := Expression.condition_of_test (by rfl) rfl (by rfl)
  have read : ListRequest.ofJson? (pageRequest scan none none) =
      some { filter := some { text := "attribute_exists(title)" }, forward := false } := by rfl
  have filter : conditionOf (some { text := "attribute_exists(title)" }) =
      .ok (some (.present "title")) := by
    rw [conditionOf, parsed]
    rfl
  have named : operation? (pageRequest scan none none) = some .scan := rfl
  exact .intro named (.inr rfl) read (fun same => nomatch same) ⟨rfl, filter, rfl, rfl, rfl⟩

theorem titles : ((listing.candidates (store.table "posts")).filter listing.passes).mapM plainItem =
    .ok [.object [("title", .string "c"), ("id", .string "3")],
      .object [("title", .string "a"), ("id", .string "1")]] := by
  rfl

/-- **The titles come on two pages**, from the last one on. -/
theorem titles_paged :
    Reached store ∧ store.size "posts" < 2 ^ 64 ∧ Lists (pageRequest scan none none) listing ∧
      (∀ limit ∈ [2, 2, 2], limit < 2 ^ 64) ∧
      ∃ pages, store.pagesFrom "posts" scan none [2, 2, 2] =
          pages.map (fun page => .ok page.json) ∧
        (∃ front last, pages = front ++ [last] ∧ last.next = none) ∧
        pages.flatMap Page.items =
          [.object [("title", .string "c"), ("id", .string "3")],
            .object [("title", .string "a"), ("id", .string "1")]] := by
  have size : store.size "posts" = 3 := by rfl
  have small : store.size "posts" < 2 ^ 64 := by omega
  have words : ∀ limit ∈ [2, 2, 2], limit < 2 ^ 64 := by decide
  have candidates : (listing.candidates (store.table "posts")).length = 3 := by rfl
  obtain ⟨whole, _, _, _, shown, _, paged⟩ := reached.pages_of_listing small lists
  obtain ⟨pages, answers, _, ends⟩ := paged [2, 2, 2] words
  obtain ⟨same, last⟩ := ends (by decide) (by decide) (by rw [candidates]; decide)
  refine ⟨reached, small, lists, words, pages, answers, last, ?_⟩
  rw [same]
  exact (Except.ok.inj (titles.symm.trans shown)).symm

end Posts

end FieldResolver.Table
