/-
**Values written out, position by position.**

Lists and maps may be shared and may contain themselves. A value is written out along the ways that
lead down from it, and such a way goes on until it meets a container for the second time. There are
only so many containers on the heap, so every way ends, and the budget of the writer never does.

* `Heap.wellFounded_enters`: writing out a part below its ancestors cannot go on without end;
* `Heap.unfoldWithin_of_room`: more budget than there are containers changes nothing;
* `Heap.at?_written`: what stands at a position is what is found there in memory, written out below
  the containers on the way;
* `Heap.written_of_apart`: what is written does not depend on ancestors that are not met again;
* `Heap.unfold_positions`: placeholders stand exactly where a container is among its own ancestors.
-/

import FieldResolver.Proofs.Template.Memory
import Mathlib.Data.List.ProdSigma
import Mathlib.Logic.Relation

namespace FieldResolver.Template

/-! ### Containers not met yet -/

/-- How many of some things have not been met yet. -/
def unmet {α : Type} [DecidableEq α] (all met : List α) : Nat :=
  (all.filter fun thing => thing ∉ met).length

section

variable {α : Type} [DecidableEq α] {all met : List α} {thing : α}

theorem unmet_nil (all : List α) : unmet all [] = all.length := by simp [unmet]

/-- Meeting one of them for the first time leaves fewer. -/
theorem unmet_cons_lt (known : thing ∈ all) (first : thing ∉ met) :
    unmet all (thing :: met) < unmet all met := by
  have among : thing ∈ all.filter fun other => other ∉ met := by simp [known, first]
  have fewer := List.length_filter_lt_length_iff_exists (p := fun other => other ≠ thing) |>.mpr
    ⟨thing, among, by simp⟩
  rw [List.filter_filter] at fewer
  simpa [unmet, not_or] using fewer

end

namespace Value

/-- A container is known by its address. -/
theorem eq_of_address? {value other : Value} {address : Address}
    (here : value.address? = some address) (there : other.address? = some address) :
    value = other := by
  cases value <;> cases here <;> cases other <;> cases there <;> rfl

end Value

namespace Heap

/-- The addresses of all containers on a heap. -/
def addresses (heap : Heap) : List Address :=
  (List.range heap.lists.size).map .list ++ (List.range heap.maps.size).map .map

theorem mem_addresses {heap : Heap} {address : Address} :
    address ∈ heap.addresses ↔ heap.Holds address := by
  cases address <;> simp [addresses, Holds]

theorem length_addresses (heap : Heap) : heap.addresses.length = heap.size := by
  simp [addresses, size]

/-- How many containers are left for ways below ancestors. -/
def room (heap : Heap) (above : List Address) : Nat := unmet heap.addresses above

theorem room_nil (heap : Heap) : heap.room [] = heap.size := by
  rw [room, unmet_nil, length_addresses]

/-- The parts of a container in order; what is no container has none. -/
def parts (heap : Heap) : Value → List Value
  | .list place => heap.list place
  | .map place => (heap.map place).values
  | _ => []

section

variable {heap : Heap} {above : List Address} {value part : Value} {address : Address}

/-- A container with a part is on the heap. -/
theorem holds_of_mem_parts (container : value.address? = some address)
    (member : part ∈ heap.parts value) : heap.Holds address := by
  cases value with
  | list place =>
    cases container
    by_contra unknown
    have empty : heap.parts (.list place) = [] := by
      simp [parts, list, Nat.le_of_not_lt unknown]
    rw [empty] at member
    cases member
  | map place =>
    cases container
    by_contra unknown
    have empty : heap.parts (.map place) = [] := by
      simp [parts, map, Dict.values, Nat.le_of_not_lt unknown]
    rw [empty] at member
    cases member
  | _ => cases container

/-- A step down to a part of a container that was not met before leaves less room. -/
theorem room_cons_lt (container : value.address? = some address) (outside : address ∉ above)
    (member : part ∈ heap.parts value) : heap.room (address :: above) < heap.room above :=
  unmet_cons_lt (mem_addresses.mpr (holds_of_mem_parts container member)) outside

end

/-! ### Writing out without a budget -/

/-- Whether writing out a value below ancestors comes to writing out a part of it. -/
inductive Enters (heap : Heap) : List Address × Value → List Address × Value → Prop
  | part {above : List Address} {value part : Value} {address : Address}
      (container : value.address? = some address) (outside : address ∉ above)
      (member : part ∈ heap.parts value) : Enters heap (address :: above, part) (above, value)

/-- **No way down goes on without end**: every step leaves less room. -/
theorem wellFounded_enters (heap : Heap) : WellFounded heap.Enters := by
  refine Subrelation.wf ?_ (InvImage.wf (fun call => heap.room call.1) Nat.lt_wfRel.wf)
  intro inner outer enters
  cases enters with
  | part container outside member => exact room_cons_lt container outside member

section

variable {heap : Heap} {above : List Address} {value : Value} {address : Address}

theorem unfoldWithin_again {budget : Nat} (container : value.address? = some address)
    (inside : address ∈ above) : heap.unfoldWithin budget above value = .again address := by
  cases value with
  | list place | map place =>
    cases container
    cases budget with
    | zero => rfl
    | succ budget => rw [unfoldWithin, if_pos (by simpa using inside)]
  | _ => cases container

/-- **The budget does not matter** as long as it is greater than the room there is. -/
theorem unfoldWithin_of_room {budget budget' : Nat} (enough : heap.room above < budget)
    (enough' : heap.room above < budget') :
    heap.unfoldWithin budget above value = heap.unfoldWithin budget' above value := by
  induction budget generalizing budget' above value with
  | zero => cases enough
  | succ budget ih =>
    obtain ⟨budget', rfl⟩ : ∃ below, budget' = below + 1 := ⟨budget' - 1, by omega⟩
    cases container : value.address? with
    | none => rw [unfoldWithin_leaf container, unfoldWithin_leaf container]
    | some address =>
      by_cases inside : address ∈ above
      · rw [unfoldWithin_again container inside, unfoldWithin_again container inside]
      · have below : ∀ part ∈ heap.parts value,
            heap.unfoldWithin budget (address :: above) part =
              heap.unfoldWithin budget' (address :: above) part := by
          intro part member
          have less := room_cons_lt container inside member
          exact ih (by omega) (by omega)
        cases value with
        | list place =>
          cases container
          rw [unfoldWithin_list inside, unfoldWithin_list inside]
          exact congrArg Tree.list (List.map_congr_left below)
        | map place =>
          cases container
          rw [unfoldWithin_map inside, unfoldWithin_map inside, Dict.mapValues, Dict.mapValues]
          congr 1
          refine List.map_congr_left fun entry member => ?_
          rw [below entry.2 (List.mem_map_of_mem member)]
        | _ => cases container

/-- A value written out below ancestors, with as much budget as that takes. -/
def written (heap : Heap) (above : List Address) (value : Value) : Tree :=
  heap.unfoldWithin (heap.room above + 1) above value

theorem unfoldWithin_eq_written {budget : Nat} (enough : heap.room above < budget) :
    heap.unfoldWithin budget above value = heap.written above value :=
  unfoldWithin_of_room enough (Nat.lt_succ_self _)

theorem unfold_eq_written (heap : Heap) (value : Value) :
    heap.unfold value = heap.written [] value :=
  unfoldWithin_eq_written (by rw [room_nil]; exact Nat.lt_succ_self _)

end

end Heap

/-! ### Positions -/

/-- What stands at a position, apart from what stands below it. -/
inductive Head where
  | leaf (value : Value)
  | list (length : Nat)
  | map (keys : List String)
  | again (address : Address)
deriving DecidableEq

namespace Tree

/-- What a tree shows at its root. -/
def head : Tree → Head
  | .leaf value => .leaf value
  | .list items => .list items.length
  | .map entries => .map (Dict.keys entries)
  | .again address => .again address

theorem head_eq_again_iff {tree : Tree} {address : Address} :
    tree.head = .again address ↔ tree = .again address := by
  cases tree <;> simp [head]

/-- The trees right below the root, in order. -/
def parts : Tree → List Tree
  | .list items => items
  | .map entries => Dict.values entries
  | .leaf _ | .again _ => []

/-- The tree at a position, which is given by the places of the trees on the way. -/
def at? (tree : Tree) : List Nat → Option Tree
  | [] => some tree
  | place :: path => tree.parts[place]?.bind fun part => part.at? path

end Tree

namespace Heap

/-- What is to stand where a value is found below ancestors. -/
def head (heap : Heap) (above : List Address) : Value → Head
  | .list place =>
    if .list place ∈ above then .again (.list place) else .list (heap.list place).length
  | .map place => if .map place ∈ above then .again (.map place) else .map (heap.map place).keys
  | value => .leaf value

/-- What is found in memory at a position below a value, with the containers on the way in front of
its ancestors. -/
def descend (heap : Heap) (above : List Address) (value : Value) :
    List Nat → Option (List Address × Value)
  | [] => some (above, value)
  | place :: path =>
    match value.address?, (heap.parts value)[place]? with
    | some address, some part => heap.descend (address :: above) part path
    | _, _ => none

section

variable {heap : Heap} {above : List Address} {value : Value} {address : Address}

/-- **What is written out shows** a placeholder for an ancestor, and else what is in memory. -/
theorem head_written (heap : Heap) (above : List Address) (value : Value) :
    (heap.written above value).head = heap.head above value := by
  cases container : value.address? with
  | none =>
    rw [written, unfoldWithin_leaf container]
    cases value with
    | list | map => cases container
    | _ => rfl
  | some address =>
    by_cases inside : address ∈ above
    · rw [written, unfoldWithin_again container inside]
      cases value <;> cases container <;> rw [head, if_pos inside] <;> rfl
    · cases value with
      | list place =>
        cases container
        rw [written, unfoldWithin_list inside, head, if_neg inside, Tree.head, List.length_map]
      | map place =>
        cases container
        rw [written, unfoldWithin_map inside, head, if_neg inside, Tree.head, Dict.keys_mapValues]
      | _ => cases container

/-- Below a placeholder there is nothing. -/
theorem parts_written_again (container : value.address? = some address)
    (inside : address ∈ above) : (heap.written above value).parts = [] := by
  rw [written, unfoldWithin_again container inside]
  rfl

/-- Below a container are its parts, written out below it. -/
theorem parts_written (container : value.address? = some address) (outside : address ∉ above) :
    (heap.written above value).parts =
      (heap.parts value).map (heap.written (address :: above)) := by
  have below : ∀ part ∈ heap.parts value,
      heap.unfoldWithin (heap.room above) (address :: above) part =
        heap.written (address :: above) part :=
    fun part member => unfoldWithin_eq_written (room_cons_lt container outside member)
  cases value with
  | list place =>
    cases container
    rw [written, unfoldWithin_list outside]
    exact List.map_congr_left below
  | map place =>
    cases container
    rw [written, unfoldWithin_map outside, ← List.map_congr_left below, Tree.parts, parts,
      Dict.values, Dict.values, Dict.mapValues, List.map_map, List.map_map]
    rfl
  | _ => cases container

/-- Ancestors are only added on the way down. -/
theorem suffix_of_descend {path : List Nat} {below : List Address} {found : Value}
    (way : heap.descend above value path = some (below, found)) : above <:+ below := by
  induction path generalizing above value with
  | nil =>
    cases way
    exact List.suffix_refl _
  | cons place path ih =>
    rw [descend] at way
    split at way
    · exact (List.suffix_cons _ _).trans (ih way)
    · cases way

/-- **What stands at a position** is what is found there in memory, written out below the containers
on the way; there is no such position if one of them is met twice. -/
theorem at?_written (distinct : above.Nodup) (path : List Nat) :
    (heap.written above value).at? path =
      match heap.descend above value path with
      | some (below, found) => if below.Nodup then some (heap.written below found) else none
      | none => none := by
  induction path generalizing above value with
  | nil => simp only [Tree.at?, descend, if_pos distinct]
  | cons place path ih =>
    rw [Tree.at?, descend]
    cases container : value.address? with
    | none =>
      rw [written, unfoldWithin_leaf container]
      rfl
    | some address =>
      by_cases inside : address ∈ above
      · rw [parts_written_again container inside]
        cases found : (heap.parts value)[place]? with
        | none => rfl
        | some part =>
          simp only
          split
          · rename_i below end_ way
            rw [if_neg]
            · rfl
            · intro nodup
              have shorter := nodup.sublist (suffix_of_descend way).sublist
              exact (List.nodup_cons.mp shorter).1 inside
          · rfl
      · rw [parts_written container inside, List.getElem?_map]
        cases found : (heap.parts value)[place]? with
        | none => rfl
        | some part => exact ih (List.nodup_cons.mpr ⟨inside, distinct⟩)

theorem head_eq_again_iff :
    heap.head above value = .again address ↔ value.address? = some address ∧ address ∈ above := by
  cases value with
  | list place | map place =>
    rw [head]
    split
    · rename_i inside
      constructor
      · rintro ⟨⟩
        exact ⟨rfl, inside⟩
      · rintro ⟨⟨⟩, _⟩
        rfl
    · rename_i outside
      constructor
      · rintro ⟨⟩
      · rintro ⟨⟨⟩, inside⟩
        exact absurd inside outside
  | _ => simp [head, Value.address?]

end

section

variable (heap : Heap) (root : Value)

theorem at?_unfold (path : List Nat) :
    (heap.unfold root).at? path =
      match heap.descend [] root path with
      | some (above, found) => if above.Nodup then some (heap.written above found) else none
      | none => none := by
  rw [unfold_eq_written]
  exact at?_written List.nodup_nil path

/-- What a value shows at a position when it is written out. -/
theorem head_at?_unfold (path : List Nat) :
    ((heap.unfold root).at? path).map Tree.head =
      match heap.descend [] root path with
      | some (above, found) => if above.Nodup then some (heap.head above found) else none
      | none => none := by
  rw [at?_unfold]
  cases heap.descend [] root path with
  | none => rfl
  | some found =>
    simp only
    split
    · exact congrArg some (head_written heap _ _)
    · rfl

/-- **A placeholder stands exactly** where a container is among its own ancestors. -/
theorem at?_unfold_eq_again_iff (path : List Nat) (address : Address) :
    (heap.unfold root).at? path = some (.again address) ↔
      ∃ above found, heap.descend [] root path = some (above, found) ∧ above.Nodup ∧
        found.address? = some address ∧ address ∈ above := by
  have seen : (heap.unfold root).at? path = some (.again address) ↔
      ((heap.unfold root).at? path).map Tree.head = some (.again address) := by
    simp only [Option.map_eq_some_iff, Tree.head_eq_again_iff, exists_eq_right]
  rw [seen, head_at?_unfold]
  cases heap.descend [] root path with
  | none => simp
  | some found =>
    obtain ⟨above, found⟩ := found
    simp only [Option.some.injEq, Prod.mk.injEq, exists_and_left, exists_eq_left', and_assoc]
    by_cases distinct : above.Nodup
    · simp [distinct, head_eq_again_iff]
    · simp [distinct]

end

end Heap

/-! ### Values without cycles -/

namespace Heap

/-- Whether a value is a part of another one. -/
def Part (heap : Heap) (whole part : Value) : Prop := part ∈ heap.parts whole

/-- Whether nothing below a value is below itself. -/
def Acyclic (heap : Heap) (root : Value) : Prop :=
  ∀ value, Relation.ReflTransGen heap.Part root value → ¬ Relation.TransGen heap.Part value value

open Relation (ReflTransGen TransGen)

section

variable {heap : Heap} {above : List Address} {root value : Value}

/-- Where parts have a lower rank, from the root on, there are no cycles. -/
theorem acyclic_of_rank (rank : Value → Nat)
    (lower : ∀ {whole part}, rank whole ≤ rank root → heap.Part whole part →
      rank part < rank whole) :
    heap.Acyclic root := by
  intro value reached
  have bounded : rank value ≤ rank root := by
    induction reached with
    | refl => exact le_rfl
    | tail _ here ih => exact (lower ih here).le.trans ih
  intro cycle
  have less : ∀ {last}, TransGen heap.Part value last → rank last < rank value := by
    intro last way
    induction way with
    | single here => exact lower bounded here
    | tail _ here ih => exact (lower (ih.le.trans bounded) here).trans ih
  exact Nat.lt_irrefl _ (less cycle)

/-- Ancestors that are not met below a value do not matter. -/
theorem unfoldWithin_of_apart {budget : Nat} {inner : List Address}
    (apart : ∀ found, ReflTransGen heap.Part value found →
      ∀ address, found.address? = some address → address ∉ above) :
    heap.unfoldWithin budget (inner ++ above) value = heap.unfoldWithin budget inner value := by
  induction budget generalizing inner value with
  | zero => cases value <;> rfl
  | succ budget ih =>
    cases container : value.address? with
    | none => rw [unfoldWithin_leaf container, unfoldWithin_leaf container]
    | some address =>
      by_cases inside : address ∈ inner
      · rw [unfoldWithin_again container inside,
          unfoldWithin_again container (List.mem_append_left _ inside)]
      · have outside : address ∉ inner ++ above := fun member =>
          (List.mem_append.mp member).elim inside (apart value .refl address container)
        have below : ∀ part ∈ heap.parts value,
            heap.unfoldWithin budget (address :: (inner ++ above)) part =
              heap.unfoldWithin budget (address :: inner) part :=
          fun part member =>
            show heap.unfoldWithin budget (address :: inner ++ above) part = _ from
              ih fun found way => apart found (.head member way)
        cases value with
        | list place =>
          cases container
          rw [unfoldWithin_list inside, unfoldWithin_list outside]
          exact congrArg Tree.list (List.map_congr_left below)
        | map place =>
          cases container
          rw [unfoldWithin_map inside, unfoldWithin_map outside]
          refine congrArg Tree.map (List.map_congr_left fun entry member => ?_)
          rw [below entry.2 (List.mem_map_of_mem member)]
        | _ => cases container

/-- **A value whose ancestors are not met again** is written out as it is alone. -/
theorem written_of_apart (apart : ∀ found, ReflTransGen heap.Part value found →
      ∀ address, found.address? = some address → address ∉ above) :
    heap.written above value = heap.unfold value := by
  have room : heap.room above ≤ heap.size := by
    rw [← length_addresses]
    exact List.length_filter_le _ _
  rw [← unfoldWithin_eq_written (Nat.lt_succ_of_le room)]
  exact @unfoldWithin_of_apart heap above value (heap.size + 1) [] apart

/-- Whether ancestors are different containers that a value is below. -/
structure Above (heap : Heap) (root : Value) (above : List Address) (value : Value) : Prop where
  reached : ReflTransGen heap.Part root value
  distinct : above.Nodup
  below : ∀ address ∈ above, ∃ container : Value,
    container.address? = some address ∧ TransGen heap.Part container value

/-- Without cycles no container below a value is among its ancestors. -/
theorem Above.apart (acyclic : heap.Acyclic root) (known : heap.Above root above value)
    (found : Value) (way : ReflTransGen heap.Part value found) (address : Address)
    (container : found.address? = some address) : address ∉ above := by
  intro member
  obtain ⟨ancestor, same, below⟩ := known.below address member
  cases Value.eq_of_address? same container
  exact acyclic _ (known.reached.trans way) (below.trans_left way)

/-- Without cycles the ancestors stay different on the way down. -/
theorem Above.descend (acyclic : heap.Acyclic root) {path : List Nat} {below : List Address}
    {found : Value} (known : heap.Above root above value)
    (way : heap.descend above value path = some (below, found)) :
    heap.Above root below found := by
  induction path generalizing above value with
  | nil =>
    cases way
    exact known
  | cons place path ih =>
    rw [Heap.descend] at way
    split at way
    · rename_i address part container here
      have member : heap.Part value part := List.mem_of_getElem? here
      refine ih ⟨known.reached.tail member, ?_, ?_⟩ way
      · exact List.nodup_cons.mpr
          ⟨known.apart acyclic value .refl address container, known.distinct⟩
      · refine List.forall_mem_cons.mpr ⟨⟨value, container, .single member⟩, ?_⟩
        intro other among
        obtain ⟨ancestor, same, longer⟩ := known.below other among
        exact ⟨ancestor, same, longer.tail member⟩
    · cases way

theorem above_root (heap : Heap) (root : Value) : heap.Above root [] root where
  reached := .refl
  distinct := List.nodup_nil
  below _ member := nomatch member

/-- **Without cycles every position in memory is written out**, and what stands there is what is
found there, written out alone. -/
theorem at?_unfold_of_acyclic (acyclic : heap.Acyclic root) (path : List Nat) :
    (heap.unfold root).at? path =
      (heap.descend [] root path).map fun found => heap.unfold found.2 := by
  rw [at?_unfold]
  cases way : heap.descend [] root path with
  | none => rfl
  | some found =>
    obtain ⟨above, found⟩ := found
    have known := (above_root heap root).descend acyclic way
    simp only [if_pos known.distinct, Option.map_some, written_of_apart (known.apart acyclic)]

end

end Heap

/-! ### JSON and text -/

namespace Head

/-- The JSON form of what stands at a position, made of those of its parts. -/
def json : Head → List Json → Json
  | .leaf value, _ => Tree.leafJson value
  | .list _, parts => .array parts
  | .map keys, parts => .object (keys.zip parts)
  | .again address, _ => .string address.placeholder

/-- The text of what stands at a position, made of those of its parts. -/
def text : Head → List (List Char) → List Char
  | .leaf value, _ => Tree.leafText value
  | .list _, parts => '[' :: (Tree.listed parts ++ [']'])
  | .map keys, parts =>
    '\x7b' :: (Tree.listed (keys.zipWith (fun key part => key.toList ++ '=' :: part) parts) ++
      ['\x7d'])
  | .again address, _ => address.placeholder.toList

end Head

namespace Tree

theorem itemsJson_eq_map (items : List Tree) : itemsJson items = items.map json := by
  induction items with
  | nil => rfl
  | cons item rest ih => rw [itemsJson, ih, List.map_cons]

theorem entriesJson_eq_zip (entries : List (String × Tree)) :
    entriesJson entries = (Dict.keys entries).zip ((Dict.values entries).map json) := by
  induction entries with
  | nil => rfl
  | cons entry rest ih =>
    rw [entriesJson, ih]
    rfl

theorem itemTexts_eq_map (items : List Tree) : itemTexts items = items.map text := by
  induction items with
  | nil => rfl
  | cons item rest ih => rw [itemTexts, ih, List.map_cons]

theorem entryTexts_eq_zipWith (entries : List (String × Tree)) :
    entryTexts entries = (Dict.keys entries).zipWith (fun key part => key.toList ++ '=' :: part)
      ((Dict.values entries).map text) := by
  induction entries with
  | nil => rfl
  | cons entry rest ih =>
    rw [entryTexts, ih]
    rfl

/-- The JSON form is made position by position. -/
theorem json_eq (tree : Tree) : tree.json = tree.head.json (tree.parts.map json) := by
  cases tree with
  | leaf | again => rfl
  | list items => rw [json, itemsJson_eq_map]; rfl
  | map entries => rw [json, entriesJson_eq_zip]; rfl

/-- The text is made position by position. -/
theorem text_eq (tree : Tree) : tree.text = tree.head.text (tree.parts.map text) := by
  cases tree with
  | leaf | again => rfl
  | list items => rw [text, itemTexts_eq_map]; rfl
  | map entries => rw [text, entryTexts_eq_zipWith]; rfl

end Tree

namespace Heap

/-- **Values are written out position by position.** No way down goes on without end, so the budget
of the writer is never used up. At a position stands what is found there in memory, as long as the
containers on the way to it are different: a placeholder exactly where the container is among them,
and else the container with its parts in their order. The JSON form and the text follow from that.
A value without cycles is written out completely, and every part of it as it is alone. -/
theorem unfold_positions (heap : Heap) (root : Value) :
    WellFounded heap.Enters ∧
      (∀ budget, heap.size < budget → heap.unfoldWithin budget [] root = heap.unfold root) ∧
      (∀ path, ((heap.unfold root).at? path).map Tree.head =
        match heap.descend [] root path with
        | some (above, found) => if above.Nodup then some (heap.head above found) else none
        | none => none) ∧
      (∀ path address, (heap.unfold root).at? path = some (.again address) ↔
        ∃ above found, heap.descend [] root path = some (above, found) ∧ above.Nodup ∧
          found.address? = some address ∧ address ∈ above) ∧
      (heap.json root = (heap.unfold root).json ∧
        heap.text root = String.ofList (heap.unfold root).text ∧
        ∀ tree : Tree, tree.json = tree.head.json (tree.parts.map Tree.json) ∧
          tree.text = tree.head.text (tree.parts.map Tree.text)) ∧
      (heap.Acyclic root →
        (∀ path address, (heap.unfold root).at? path ≠ some (.again address)) ∧
          ∀ path, (heap.unfold root).at? path =
            (heap.descend [] root path).map fun found => heap.unfold found.2) := by
  refine ⟨heap.wellFounded_enters, ?_, heap.head_at?_unfold root, heap.at?_unfold_eq_again_iff root,
    ⟨rfl, rfl, fun tree => ⟨tree.json_eq, tree.text_eq⟩⟩, fun acyclic => ⟨?_, ?_⟩⟩
  · intro budget enough
    rw [unfold_eq_written]
    exact unfoldWithin_eq_written (by rwa [room_nil])
  · intro path address shown
    obtain ⟨above, found, way, _, container, member⟩ :=
      (heap.at?_unfold_eq_again_iff root path address).mp shown
    exact ((above_root heap root).descend acyclic way).apart acyclic found .refl address container
      member
  · exact at?_unfold_of_acyclic acyclic

end Heap

namespace Knotted

/-- A list that is shared by another one, and a map that contains itself and both lists. -/
def memory : Heap where
  lists := #[[.int 1], [.list 0, .list 0]]
  maps := #[[("id", .int 1), ("self", .map 0), ("lists", .list 1)]]

example : memory.text (.map 0) = "\x7bid=1, self=(this Map), lists=[[1], [1]]\x7d" := by decide

/-- How far a value is from having no parts. -/
def rank : Value → Nat
  | .list place => place + 1
  | .map _ => 3
  | _ => 0

/-- **A shared list is written out wherever it stands.** -/
theorem shared_written :
    memory.Acyclic (.list 1) ∧
      (∀ path address, (memory.unfold (.list 1)).at? path ≠ some (.again address)) ∧
      (memory.unfold (.list 1)).at? [1] = some (memory.unfold (.list 0)) ∧
      memory.json (.list 1) = .array [.array [.int 1], .array [.int 1]] := by
  have acyclic : memory.Acyclic (.list 1) := by
    refine Heap.acyclic_of_rank rank fun {whole part} low member => ?_
    cases whole with
    | list place =>
      have small : place ≤ 1 := Nat.le_of_succ_le_succ low
      match place, small with
      | 0, _ => simp_all [Heap.Part, Heap.parts, Heap.list, memory, rank]
      | 1, _ => simp_all [Heap.Part, Heap.parts, Heap.list, memory, rank]
    | map => exact absurd low (show ¬ 3 ≤ 2 by decide)
    | _ => cases member
  obtain ⟨_, _, _, _, ⟨json, _⟩, complete⟩ := memory.unfold_positions (.list 1)
  obtain ⟨none, alone⟩ := complete acyclic
  exact ⟨acyclic, none, alone [1], json.trans rfl⟩

end Knotted

end FieldResolver.Template
