/-
**The content type of web and search requests.**

Names of headers are compared in small letters when they are sent, but as they are spelled in the
headers of a request. A web request adds a content type for a body that is JSON unless its headers
have one in some spelling. A search request writes its headers over a `Content-Type` of its own, so
one that is spelled in another way is sent besides.

* `Dict.only`: the entries under keys of a kind, and `Dict.only_insertAll`, what becomes of them when
  entries are written;
* `contentTypes_outgoing`: the content types that a web request is sent with;
* `givenTypes_search`: the content types of the web request of a search;
* `content_types_sent`: what is sent for requests as they arrive.
-/

import FieldResolver.Proofs.Dict
import FieldResolver.Proofs.Fallible
import FieldResolver.Source.Web

namespace FieldResolver

namespace Dict

/-- The entries under keys of a kind. -/
def only {α : Type} (kind : String → Bool) (dict : Dict α) : Dict α :=
  dict.filter fun entry => kind entry.1

section

variable {α : Type} (kind : String → Bool)

theorem only_cons (key : String) (value : α) (rest : Dict α) :
    only kind ((key, value) :: rest) =
      if kind key = true then (key, value) :: only kind rest else only kind rest :=
  List.filter_cons

/-- A write, seen on keys of a kind. -/
theorem only_insert (dict : Dict α) (key : String) (value : α) :
    only kind (insert dict key value) =
      if kind key = true then insert (only kind dict) key value else only kind dict := by
  induction dict with
  | nil => exact only_cons kind key value []
  | cons entry rest ih =>
    obtain ⟨k, v⟩ := entry
    rw [insert]
    by_cases same : k = key
    · subst same
      rw [if_pos rfl, only_cons, only_cons]
      by_cases seen : kind k = true <;> simp [seen, insert]
    · rw [if_neg same, only_cons, only_cons, ih]
      by_cases here : kind k = true <;> by_cases there : kind key = true <;>
        simp [here, there, insert, same]

/-- Writing entries, seen on keys of a kind. -/
theorem only_insertAll (dict : Dict α) (entries : List (String × α)) :
    only kind (insertAll dict entries) = insertAll (only kind dict) (only kind entries) := by
  induction entries generalizing dict with
  | nil => rfl
  | cons entry rest ih =>
    obtain ⟨k, v⟩ := entry
    rw [insertAll_cons, ih, only_insert, only_cons]
    by_cases seen : kind k = true
    · rw [if_pos seen, if_pos seen, insertAll_cons]
    · rw [if_neg seen, if_neg seen]

end

end Dict

namespace Web

open Request

/-- Whether a name is that of the content type, in whichever letters. -/
def namesType (name : String) : Bool := smallLetters name == "content-type"

/-- The headers of a request that give a content type. -/
def givenTypes (headers : Dict Json) : Dict Json := headers.only namesType

/-- The content types of what is sent, in order. -/
def Outgoing.contentTypes (sent : Outgoing) : List String :=
  (Dict.only (· == "content-type") sent.headers).values

/-- Whether a body is JSON, and neither text nor null. -/
def isJsonBody : Option Json → Bool
  | none | some .null | some (.string _) => false
  | some _ => true

theorem hasHeader_eq (headers : Dict Json) :
    hasHeader headers "content-type" = !(givenTypes headers).isEmpty := by
  induction headers with
  | nil => rfl
  | cons header rest ih =>
    obtain ⟨name, value⟩ := header
    rw [givenTypes, Dict.only_cons]
    by_cases type : namesType name = true
    · rw [if_pos type]
      show (namesType name || _) = true
      rw [type, Bool.true_or]
    · rw [if_neg type, ← givenTypes, ← ih]
      show (namesType name || _) = _
      rw [Bool.not_eq_true _ |>.mp type, Bool.false_or]
      rfl

/-- The headers that are given are sent under their names in small letters. -/
theorem only_given (headers : Dict Json) :
    (Dict.only (· == "content-type")
        (headers.map fun (name, value) => (smallLetters name, plainText value))).values =
      (givenTypes headers).values.map plainText := by
  induction headers with
  | nil => rfl
  | cons header rest ih =>
    obtain ⟨name, value⟩ := header
    rw [givenTypes, List.map_cons, Dict.only_cons, Dict.only_cons, ← namesType]
    by_cases type : namesType name = true
    · rw [if_pos type, if_pos type]
      exact congrArg (plainText value :: ·) ih
    · rw [if_neg type, if_neg type]
      exact ih

/-- The content type that is added. -/
theorem only_added (headers : Dict Json) (body : Option Json) :
    (Dict.only (· == "content-type") (addedHeaders headers body)).values =
      if isJsonBody body = true ∧ givenTypes headers = [] then ["application/json"] else [] := by
  by_cases json : isJsonBody body = true
  · obtain ⟨value, rfl, added⟩ : ∃ value, body = some value ∧
        addedHeaders headers (some value) =
          if hasHeader headers "content-type" then [] else [jsonHeader] := by
      cases body with
      | none => cases json
      | some value =>
        cases value with
        | null | string => cases json
        | _ => exact ⟨_, rfl, rfl⟩
    rw [added, hasHeader_eq]
    cases given : givenTypes headers with
    | nil =>
      rw [if_neg (by simp), if_pos ⟨json, rfl⟩]
      rfl
    | cons header rest =>
      rw [if_pos (by simp), if_neg (by simp)]
      rfl
  · have none : addedHeaders headers body = [] := by
      cases body with
      | none => rfl
      | some value =>
        cases value with
        | null | string => rfl
        | _ => exact absurd rfl json
    rw [none, if_neg fun both => json both.1]
    rfl

theorem headers_outgoing {endpoint : String} {request : Request} {sent : Outgoing}
    (sends : request.outgoing endpoint = .ok sent) : sent.headers = request.sentHeaders := by
  unfold outgoing at sends
  cases named : Method.ofName? (Unicode.uppercase request.method) with
  | none =>
    rw [named] at sends
    cases sends
  | some method =>
    rw [named] at sends
    obtain ⟨_, -, sends⟩ := Fallible.bind_ok sends
    obtain ⟨address, -, sends⟩ := Fallible.bind_ok sends
    cases address with
    | other text => cases sends
    | web address =>
      dsimp only at sends
      split at sends
      · cases sends
        rfl
      · cases sends

/-- **A web request is sent with the content types that it gives**, and with that of JSON where it
gives none and its body is JSON. -/
theorem contentTypes_outgoing {endpoint : String} {request : Request} {sent : Outgoing}
    (sends : request.outgoing endpoint = .ok sent) :
    sent.contentTypes = (givenTypes request.headers).values.map plainText ++
      if isJsonBody request.body = true ∧ givenTypes request.headers = [] then
        ["application/json"] else [] := by
  rw [Outgoing.contentTypes, headers_outgoing sends, sentHeaders, Dict.only, List.filter_append,
    Dict.values, List.map_append]
  exact congrArg₂ _ (only_given _) (only_added _ _)

/-- The web request of a search gives the content type of JSON and those of the search, which is
written over the former where it is spelled like it. -/
theorem givenTypes_search (search : Search) :
    givenTypes search.request.headers =
      Dict.insertAll [("Content-Type", .string "application/json")] (givenTypes search.headers) := by
  have named : namesType "Content-Type" = true := by decide +kernel
  have own : Dict.only namesType [("Content-Type", Json.string "application/json")] =
      [("Content-Type", .string "application/json")] := by
    rw [Dict.only_cons, if_pos named]
    rfl
  have written := Dict.only_insertAll namesType [("Content-Type", .string "application/json")]
    search.headers
  rwa [own] at written

/-- What a web request is answered is what is answered to what is sent for it. -/
theorem execute_of_outgoing {endpoint : String} {value : Json} {request : Request}
    {sent : Outgoing} (reads : Request.ofJson? value = some request)
    (sends : request.outgoing endpoint = .ok sent) (transport : Transport) :
    execute transport endpoint value =
      ((transport sent).mapError .unsent).map Incoming.json := by
  rw [execute, reads]
  dsimp only
  rw [send, sends]
  rfl

/-- What a search is answered is what is answered to what is sent for it. -/
theorem search_of_outgoing {endpoint : String} {value : Json} {search : Search} {sent : Outgoing}
    (reads : Search.ofJson? value = some search)
    (sends : search.request.outgoing endpoint = .ok sent) (transport : Transport) :
    Web.search transport endpoint value =
      ((transport sent).mapError .unsent).bind fun answer =>
        (Json.parse answer.body).mapError .invalidAnswer := by
  rw [Web.search, reads]
  dsimp only
  rw [send, sends]
  rfl

theorem isJsonBody_search (search : Search) : isJsonBody search.request.body = false := by
  rw [Search.request]
  cases Search.text? search.body <;> rfl

/-- **The content type that is sent.** A web request with one content type, in whichever letters, is
sent with that one; with none it is sent with that of JSON once if its body is neither text nor null,
and else with none. A search with none is sent with that of JSON once. A search with one is sent with
that one if it is spelled `Content-Type`, and otherwise with that of JSON besides. -/
theorem content_types_sent (endpoint : String) :
    (∀ value request sent, Request.ofJson? value = some request →
      request.outgoing endpoint = .ok sent →
        (∀ transport, execute transport endpoint value =
          ((transport sent).mapError .unsent).map Incoming.json) ∧
        (∀ name given, givenTypes request.headers = [(name, given)] →
          sent.contentTypes = [plainText given]) ∧
        (givenTypes request.headers = [] → sent.contentTypes =
          if isJsonBody request.body = true then ["application/json"] else [])) ∧
    (∀ value search sent, Search.ofJson? value = some search →
      search.request.outgoing endpoint = .ok sent →
        (∀ transport, Web.search transport endpoint value =
          ((transport sent).mapError .unsent).bind fun answer =>
            (Json.parse answer.body).mapError .invalidAnswer) ∧
        (∀ name given, givenTypes search.headers = [(name, given)] → sent.contentTypes =
          if name = "Content-Type" then [plainText given]
          else ["application/json", plainText given]) ∧
        (givenTypes search.headers = [] → sent.contentTypes = ["application/json"])) := by
  constructor
  · intro value request sent reads sends
    refine ⟨execute_of_outgoing reads sends, fun name given one => ?_, fun none => ?_⟩
    · rw [contentTypes_outgoing sends, one, if_neg (by simp)]
      rfl
    · rw [contentTypes_outgoing sends, none]
      simp [Dict.values]
  · intro value search sent reads sends
    refine ⟨search_of_outgoing reads sends, fun name given one => ?_, fun none => ?_⟩
    · rw [contentTypes_outgoing sends, if_neg (by simp [isJsonBody_search]), givenTypes_search,
        one, Dict.insertAll_cons, Dict.insert]
      by_cases spelled : name = "Content-Type"
      · rw [if_pos spelled, if_pos spelled.symm]
        rfl
      · rw [if_neg spelled, if_neg (Ne.symm spelled)]
        rfl
    · rw [contentTypes_outgoing sends, if_neg (by simp [isJsonBody_search]), givenTypes_search,
        none]
      rfl

namespace Typed

/-- A request with a content type in capitals. -/
def note : Json :=
  .object [("method", .string "POST"), ("params", .object
    [("headers", .object [("CONTENT-TYPE", .string "text/csv")]), ("body", .array [.bool true])])]

/-- What is sent for it. -/
def sent : Outgoing := ⟨.post, "http://localhost/", [("content-type", "text/csv")], some "[true]"⟩

/-- **A content type in capitals is sent alone**, though the body is JSON. -/
theorem capitals_sent_alone :
    (∃ request, Request.ofJson? note = some request ∧
      request.outgoing "http://localhost" = .ok sent) ∧ sent.contentTypes = ["text/csv"] := by
  obtain ⟨request, reads, same⟩ : ∃ request, Request.ofJson? note = some request ∧
      request = ⟨"POST", "", [], [("CONTENT-TYPE", .string "text/csv")],
        some (.array [.bool true])⟩ := ⟨_, rfl, rfl⟩
  have sends : request.outgoing "http://localhost" = .ok sent := by
    rw [same]
    decide +kernel
  have given : givenTypes request.headers = [("CONTENT-TYPE", .string "text/csv")] := by
    have named : namesType "CONTENT-TYPE" = true := by decide +kernel
    rw [same, givenTypes, Dict.only_cons, if_pos named]
    rfl
  have alone := ((content_types_sent "http://localhost").1 note request sent reads sends).2.1
    "CONTENT-TYPE" (.string "text/csv") given
  exact ⟨⟨request, reads, sends⟩, alone⟩

/-- A search with a content type in small letters. -/
def bulk : Json :=
  .object [("path", .string "/_bulk"), ("params", .object
    [("headers", .object [("content-type", .string "application/x-ndjson")])])]

/-- What is sent for it. -/
def bulkSent : Outgoing where
  method := .post
  url := "http://localhost/_bulk"
  headers := [("content-type", "application/json"), ("content-type", "application/x-ndjson")]
  body := none

/-- **A content type in small letters is sent besides another**: a search is sent with two. -/
theorem search_sent_with_two :
    ∃ search, Search.ofJson? bulk = some search ∧
      givenTypes search.headers = [("content-type", .string "application/x-ndjson")] ∧
      search.request.outgoing "http://localhost" = .ok bulkSent ∧
      bulkSent.contentTypes = ["application/json", "application/x-ndjson"] := by
  have named : namesType "content-type" = true := by decide +kernel
  refine ⟨_, rfl, ?_, ?_, rfl⟩
  · show Dict.only namesType [("content-type", Json.string "application/x-ndjson")] = _
    rw [Dict.only_cons, if_pos named]
    rfl
  · decide +kernel

end Typed

end Web

end FieldResolver
