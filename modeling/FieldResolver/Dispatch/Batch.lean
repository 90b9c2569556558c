/-
**Batches of requests.**

Requests to one function for one field of a type that come close together are sent as one call.
The first request opens a batch and the others join it; when the batch closes, the first request is
sent with the list of all payloads, and the answer has to be a list with an item for each.

* `length_shares`: every member gets a share;
* `shares_of_length_eq`: an answer of the right length is shared out item by item;
* `members_join`, `members_join_of_ne`: joining adds a member behind the others of its batch and
  leaves the other batches alone;
* `members_close`, `members_close_of_ne`: closing takes all members of its batch and no others.
-/

import FieldResolver.Dispatch.Dispatcher

namespace FieldResolver

/-- What the requests of a batch have in common. -/
structure BatchKey where
  source : String
  field : String
deriving DecidableEq

/-- A request in a batch and who waits for its share. -/
structure BatchMember where
  caller : Nat
  request : Json

/-- The open batches; each has at least one member. -/
abbrev Batches := List (BatchKey × List BatchMember)

namespace Batches

/-- The members of the open batch of a key. -/
def members : Batches → BatchKey → List BatchMember
  | [], _ => []
  | (k, list) :: rest, key => if k = key then list else members rest key

/-- Adds a member to the batch of its key, which is opened if there is none. -/
def join : Batches → BatchKey → BatchMember → Batches
  | [], key, member => [(key, [member])]
  | (k, list) :: rest, key, member =>
    if k = key then (k, list ++ [member]) :: rest else (k, list) :: join rest key member

/-- Whether a batch of a key is open. -/
def isOpen (batches : Batches) (key : BatchKey) : Bool := batches.any fun batch => batch.1 = key

/-- Closes the batch of a key. -/
def close : Batches → BatchKey → Batches
  | [], _ => []
  | (k, list) :: rest, key => if k = key then close rest key else (k, list) :: close rest key

end Batches

namespace Batch

/-- The kind of answers that cannot be shared out. -/
def mismatchKind : String := "Lambda:BatchResultMismatch"

/-- Whether a request may wait for others. -/
def accepts (request : Json) : Bool :=
  match request.field? "operation" with
  | some (.string "BatchInvoke") => true
  | _ => false

/-- The payload of a request in the list of a batch. -/
def payload (request : Json) : Json := (request.field? "payload").getD .null

/-- The request of a batch: the first one with the list of all payloads. -/
def request (members : List BatchMember) : Json :=
  let payloads := Json.array (members.map fun member => payload member.request)
  match members with
  | { request := .object fields, .. } :: _ => .object (Dict.insert fields "payload" payloads)
  | { request := other, .. } :: _ => other
  | [] => .null

/-- The failure of an answer that cannot be shared out. -/
def mismatch (source : String) (expected : Nat) (answer : Json) : CallFailure :=
  let received := match answer with
    | .array items => s!"a list of {items.length}"
    | _ => "a non-list value"
  let wanted := s!"a list of {expected} results"
  { message := s!"BatchInvoke on data source '{source}' expected {wanted}, got {received}"
    kind := mismatchKind }

/-- The shares of the members in the reply to their batch. -/
def shares (source : String) (count : Nat) : Reply → List Reply
  | .value (.array items) =>
    if items.length = count then items.map .value
    else List.replicate count (.failure (mismatch source count (.array items)))
  | .value other => List.replicate count (.failure (mismatch source count other))
  | reply => List.replicate count reply

/-- Every member gets a share. -/
theorem length_shares (source : String) (count : Nat) (reply : Reply) :
    (shares source count reply).length = count := by
  unfold shares
  split
  · split <;> simp_all
  · simp
  · simp

/-- An answer of the right length is shared out item by item. -/
theorem shares_of_length_eq {source : String} {count : Nat} {items : List Json}
    (fits : items.length = count) :
    shares source count (.value (.array items)) = items.map .value := by
  simp [shares, fits]

end Batch

namespace Batches

/-- Joining adds a member behind the others of its batch. -/
theorem members_join (batches : Batches) (key : BatchKey) (member : BatchMember) :
    (batches.join key member).members key = batches.members key ++ [member] := by
  induction batches with
  | nil => simp [join, members]
  | cons batch rest ih =>
    obtain ⟨k, list⟩ := batch
    by_cases same : k = key <;> simp [join, members, same, ih]

/-- Joining leaves the other batches alone. -/
theorem members_join_of_ne (batches : Batches) {key other : BatchKey} (member : BatchMember)
    (different : other ≠ key) :
    (batches.join key member).members other = batches.members other := by
  induction batches with
  | nil => simp [join, members, different.symm]
  | cons batch rest ih =>
    obtain ⟨k, list⟩ := batch
    by_cases same : k = key
    · subst same
      simp [join, members, different.symm]
    · simp only [join, if_neg same, members, ih]

/-- Closing takes all members of the batch of its key. -/
theorem members_close (batches : Batches) (key : BatchKey) :
    (batches.close key).members key = [] := by
  induction batches with
  | nil => rfl
  | cons batch rest ih =>
    obtain ⟨k, list⟩ := batch
    by_cases same : k = key <;> simp [close, members, same, ih]

/-- Closing leaves the other batches alone. -/
theorem members_close_of_ne (batches : Batches) {key other : BatchKey} (different : other ≠ key) :
    (batches.close key).members other = batches.members other := by
  induction batches with
  | nil => rfl
  | cons batch rest ih =>
    obtain ⟨k, list⟩ := batch
    by_cases same : k = key
    · subst same
      simp [close, members, different.symm, ih]
    · simp only [close, if_neg same, members, ih]

end Batches

end FieldResolver
