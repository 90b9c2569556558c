/-
**Values that are the same, however they are knotted.**

Two containers are compared part by part, and a pair that is met again inside itself counts as
equal. That hides no difference: of all paths that lead to one, a shortest meets no pair of
containers twice, and nothing that it passes is taken for granted. It invents none either, since
every answer `false` comes from a difference that was found.

* `sameScalar_comm`, `sameScalar_self`: values that are no containers;
* `Heap.Clash`, `Heap.Tells`: how two values may differ, and the paths that tell two values apart;
* `Heap.wellFounded_compares`, `Heap.sameWithin_of_room`: comparing ends, and no budget is used up;
* `Heap.exists_tells`: an answer `false` comes from a path that tells the two apart;
* `Heap.compared_of_shortest`: a shortest such path is found;
* `Heap.not_tells_of_copies`: no path tells a value from a copy of it;
* `Heap.same_exactly`: values are the same if and only if no path tells them apart.
-/

import FieldResolver.Proofs.Dict
import FieldResolver.Proofs.Template.Unfolding
import FieldResolver.Template.Comparison
import Mathlib.Data.List.Perm.Subperm
import Mathlib.Order.Minimal

namespace FieldResolver.Template

/-! ### Doubles -/

open Float.Model (UnpackedFloat)

theorem compare_unpacked_swap (u v : UnpackedFloat) :
    v.compare u = (u.compare v).map Ordering.swap := by
  cases u with
  | notANumber => cases v with
    | infinity sign | zero sign | finite sign => cases sign <;> rfl
    | notANumber => rfl
  | infinity sign => cases v with
    | infinity other | finite other => cases sign <;> cases other <;> rfl
    | notANumber | zero => cases sign <;> rfl
  | zero sign => cases v with
    | infinity other | finite other => cases other <;> rfl
    | notANumber | zero => rfl
  | finite sign m e => cases v with
    | infinity other => cases sign <;> cases other <;> rfl
    | notANumber | zero => cases sign <;> rfl
    | finite other m' e' =>
      have sizes : (compare e' e).then (compare m' m) =
          ((compare e e').then (compare m m')).swap := by
        rw [Ordering.swap_then, ← Std.OrientedCmp.eq_swap, ← Std.OrientedCmp.eq_swap]
      cases sign with
      | positive => cases other with
        | positive => exact congrArg some sizes
        | negative => rfl
      | negative => cases other with
        | positive => rfl
        | negative => exact congrArg (fun order => some order.swap) sizes

theorem float_beq_comm (x y : Float) : (x == y) = (y == x) := by
  show (x.toModel.unpack.compare y.toModel.unpack == some .eq) =
    (y.toModel.unpack.compare x.toModel.unpack == some .eq)
  rw [compare_unpacked_swap x.toModel.unpack]
  cases x.toModel.unpack.compare y.toModel.unpack with
  | none => rfl
  | some order => cases order <;> rfl

theorem float_beq_self {x : Float} (number : x.isNaN = false) : (x == x) = true := by
  have known : x.toModel.unpack.isNaN = false := number
  show (x.toModel.unpack.compare x.toModel.unpack == some .eq) = true
  cases unpacked : x.toModel.unpack with
  | notANumber =>
    rw [unpacked] at known
    cases known
  | infinity sign => cases sign <;> rfl
  | zero => rfl
  | finite sign m e =>
    have even : (compare e e).then (compare m m) = .eq := by simp
    cases sign with
    | positive => exact beq_iff_eq.mpr (congrArg some even)
    | negative => exact beq_iff_eq.mpr (congrArg (some ∘ Ordering.swap) even)

/-! ### Values that are no containers -/

/-- What values are compared as. -/
inductive Form where
  | scalar
  | list
  | map
deriving DecidableEq

namespace Value

/-- What a value is compared as. -/
def form : Value → Form
  | .list _ => .list
  | .map _ => .map
  | _ => .scalar

/-- Whether a value is the double that is not a number. -/
def isNaN : Value → Bool
  | .float value => value.isNaN
  | _ => false

end Value

/-- Which of two values comes first does not matter. -/
theorem sameScalar_comm (a b : Value) : sameScalar a b = sameScalar b a := by
  cases a <;> cases b <;> simp only [sameScalar, Value.isNothing]
  case float.float | float.int | int.float => exact float_beq_comm _ _
  all_goals exact BEq.comm

/-- A value equals itself. -/
theorem sameScalar_self {value : Value} (scalar : value.form = .scalar)
    (number : value.isNaN = false) : sameScalar value value = true := by
  cases value with
  | list | map => cases scalar
  | float => exact float_beq_self number
  | _ => simp [sameScalar, Value.isNothing]

theorem sameScalar_of_form_ne {a b : Value} (different : a.form ≠ b.form) :
    sameScalar a b = false := by
  cases a with
  | list => cases b with
    | list => exact absurd rfl different
    | _ => rfl
  | map => cases b with
    | map => exact absurd rfl different
    | _ => rfl
  | _ => cases b with
    | list | map => rfl
    | _ => exact absurd rfl different

/-! ### Lists and maps -/

/-- Where lists differ, their lengths do or the items at a place. -/
theorem exists_of_sameItems {same : Value → Value → Bool} {as bs : List Value}
    (different : sameItems same as bs = false) :
    as.length ≠ bs.length ∨
      ∃ place : Nat, ∃ a b, as[place]? = some a ∧ bs[place]? = some b ∧ same a b = false := by
  induction as generalizing bs with
  | nil => cases bs with
    | nil => cases different
    | cons => exact .inl (Nat.succ_ne_zero _).symm
  | cons a as ih => cases bs with
    | nil => exact .inl (Nat.succ_ne_zero _)
    | cons b bs =>
      rcases Bool.and_eq_false_iff.mp different with here | later
      · exact .inr ⟨0, a, b, rfl, rfl, here⟩
      · refine (ih later).imp (fun lengths same => lengths (Nat.succ_inj.mp same)) ?_
        rintro ⟨place, other⟩
        exact ⟨place + 1, other⟩

/-- Lists that are the same have one length and the same items at every place. -/
theorem forall₂_of_sameItems {same : Value → Value → Bool} {as bs : List Value}
    (equal : sameItems same as bs = true) : List.Forall₂ (fun a b => same a b = true) as bs := by
  induction as generalizing bs with
  | nil => cases bs with
    | nil => exact .nil
    | cons => cases equal
  | cons a as ih => cases bs with
    | nil => cases equal
    | cons b bs =>
      obtain ⟨here, later⟩ := Bool.and_eq_true_iff.mp equal
      exact .cons here (ih later)

theorem sameItems_congr {same same' : Value → Value → Bool} {as bs : List Value}
    (alike : ∀ a ∈ as, ∀ b ∈ bs, same a b = same' a b) :
    sameItems same as bs = sameItems same' as bs := by
  induction as generalizing bs with
  | nil => cases bs <;> rfl
  | cons a as ih => cases bs with
    | nil => rfl
    | cons b bs =>
      rw [sameItems, sameItems, alike a List.mem_cons_self b List.mem_cons_self,
        ih fun a first b second =>
          alike a (List.mem_cons_of_mem _ first) b (List.mem_cons_of_mem _ second)]

/-- Maps with distinct keys that differ have different keys, or different values under one. -/
theorem exists_of_sameEntries {same : Value → Value → Bool} {as bs : Dict Value}
    (first : as.keys.Nodup) (second : bs.keys.Nodup) (different : sameEntries same as bs = false) :
    (∃ key, ¬ (key ∈ as.keys ↔ key ∈ bs.keys)) ∨
      ∃ key a b, as.get? key = some a ∧ bs.get? key = some b ∧ same a b = false := by
  rcases Bool.and_eq_false_iff.mp different with sizes | entries
  · refine .inl (by_contra fun alike => ?_)
    push Not at alike
    have lengths := ((List.perm_ext_iff_of_nodup first second).mpr alike).length_eq
    simp only [Dict.keys, List.length_map] at lengths
    simp [lengths] at sizes
  · obtain ⟨⟨key, a⟩, member, other⟩ := List.all_eq_false.mp entries
    have found : as.get? key = some a := Dict.get?_of_mem first member
    cases there : bs.get? key with
    | none =>
      refine .inl ⟨key, fun alike => ?_⟩
      exact (Dict.get?_eq_none_iff bs key).mp there (alike.mp (List.mem_map_of_mem member))
    | some b => exact .inr ⟨key, a, b, found, there, by simpa [there] using other⟩

/-- Maps with distinct keys that are the same have the same keys. -/
theorem keys_of_sameEntries {same : Value → Value → Bool} {as bs : Dict Value}
    (first : as.keys.Nodup) (equal : sameEntries same as bs = true) (key : String) :
    key ∈ as.keys ↔ key ∈ bs.keys := by
  obtain ⟨sizes, entries⟩ := Bool.and_eq_true_iff.mp equal
  have among : as.keys ⊆ bs.keys := by
    intro key member
    obtain ⟨entry, here, rfl⟩ := List.mem_map.mp member
    by_contra absent
    have found := List.all_eq_true.mp entries entry here
    rw [(Dict.get?_eq_none_iff bs entry.1).mpr absent] at found
    cases found
  have lengths : bs.keys.length ≤ as.keys.length := by
    rw [Dict.keys, Dict.keys, List.length_map, List.length_map, eq_of_beq sizes]
  exact ((List.subperm_of_subset first among).perm_of_length_le lengths).mem_iff

/-- Maps that are the same have the same values under every key. -/
theorem value_of_sameEntries {same : Value → Value → Bool} {as bs : Dict Value} {key : String}
    {a b : Value} (equal : sameEntries same as bs = true) (here : as.get? key = some a)
    (there : bs.get? key = some b) : same a b = true := by
  have found := List.all_eq_true.mp (Bool.and_eq_true_iff.mp equal).2 _ (Dict.mem_of_get? here)
  rwa [there] at found

theorem sameEntries_congr {same same' : Value → Value → Bool} {as bs : Dict Value}
    (alike : ∀ a ∈ as.values, ∀ b ∈ bs.values, same a b = same' a b) :
    sameEntries same as bs = sameEntries same' as bs := by
  unfold sameEntries
  congr 1
  rw [Bool.eq_iff_iff, List.all_eq_true, List.all_eq_true]
  refine forall₂_congr fun entry member => ?_
  cases there : bs.get? entry.1 with
  | none => rfl
  | some b =>
    simp only
    rw [alike _ (List.mem_map_of_mem member) _ (List.mem_map_of_mem (Dict.mem_of_get? there))]

/-! ### Paths down -/

/-- A step down from a container to a part of it. -/
inductive Edge where
  /-- To the item of a list at a place. -/
  | item (place : Nat)
  /-- To the value of a map under a key. -/
  | entry (key : String)

/-- Two values are both lists, or both maps, or they are compared as they are. -/
theorem pair_cases (a b : Value) :
    (∃ p q, a = .list p ∧ b = .list q) ∨ (∃ p q, a = .map p ∧ b = .map q) ∨
      (a.form ≠ b.form ∨ a.form = .scalar) := by
  cases a with
  | list p => cases b with
    | list q => exact .inl ⟨p, q, rfl, rfl⟩
    | _ => exact .inr (.inr (.inl nofun))
  | map p => cases b with
    | map q => exact .inr (.inl ⟨p, q, rfl, rfl⟩)
    | _ => exact .inr (.inr (.inl nofun))
  | _ => exact .inr (.inr (.inr rfl))

namespace Heap

/-- Whether the keys of every map on a heap are distinct. -/
def Distinct (heap : Heap) : Prop := ∀ place, (heap.map place).keys.Nodup

/-- Whether no part of a container is the double that is not a number. -/
def Numeric (heap : Heap) : Prop := ∀ whole part, heap.Part whole part → part.isNaN = false

theorem numeric_of_stored {heap : Heap}
    (lists : ∀ items ∈ heap.lists.toList, ∀ item ∈ items, item.isNaN = false)
    (maps : ∀ entries ∈ heap.maps.toList, ∀ item ∈ entries.values, item.isNaN = false) :
    heap.Numeric := by
  intro whole part member
  cases whole with
  | list place =>
    have held : (Value.list place).address? = some (.list place) := rfl
    have known : place < heap.lists.size := holds_of_mem_parts held member
    exact lists (heap.list place) (by simp [list, known]) part member
  | map place =>
    have held : (Value.map place).address? = some (.map place) := rfl
    have known : place < heap.maps.size := holds_of_mem_parts held member
    exact maps (heap.map place) (by simp [map, known]) part member
  | _ => cases member

theorem distinct_of_stored {heap : Heap}
    (maps : ∀ entries ∈ heap.maps.toList, (Dict.keys entries).Nodup) : heap.Distinct := by
  intro place
  by_cases known : place < heap.maps.size
  · exact maps (heap.map place) (by simp [map, known])
  · rw [map, Array.getD_eq_getD_getElem?, Array.getElem?_eq_none (Nat.le_of_not_lt known)]
    exact List.nodup_nil

/-- The part of a container that a step leads to. -/
def part? (heap : Heap) : Value → Edge → Option Value
  | .list place, .item index => (heap.list place)[index]?
  | .map place, .entry key => (heap.map place).get? key
  | _, _ => none

/-- The value that a path leads to. -/
def follow? (heap : Heap) (value : Value) : List Edge → Option Value
  | [] => some value
  | edge :: path => (heap.part? value edge).bind fun part => heap.follow? part path

/-- Whether two values differ, apart from what differs in their parts. -/
inductive Clash (heap : Heap) : Value → Value → Prop
  | forms {a b : Value} (different : a.form ≠ b.form) : Clash heap a b
  | scalars {a b : Value} (left : a.form = .scalar) (right : b.form = .scalar)
      (unequal : sameScalar a b = false) : Clash heap a b
  | lengths {p q : Nat} (different : (heap.list p).length ≠ (heap.list q).length) :
      Clash heap (.list p) (.list q)
  | keys {p q : Nat} {key : String}
      (different : ¬ (key ∈ (heap.map p).keys ↔ key ∈ (heap.map q).keys)) :
      Clash heap (.map p) (.map q)

/-- Whether a path that both values have leads to values that differ. -/
def Tells (heap : Heap) (path : List Edge) (a b : Value) : Prop :=
  ∃ x y, heap.follow? a path = some x ∧ heap.follow? b path = some y ∧ heap.Clash x y

section

variable {heap : Heap} {a b x y : Value} {edge : Edge} {path : List Edge}

theorem part_of_part? (found : heap.part? a edge = some x) : heap.Part a x := by
  cases edge with
  | item place => cases a with
    | list => exact List.mem_of_getElem? found
    | _ => cases found
  | entry key => cases a with
    | map => exact List.mem_map_of_mem (f := Prod.snd) (Dict.mem_of_get? found)
    | _ => cases found

theorem Clash.symm (clash : heap.Clash a b) : heap.Clash b a := by
  cases clash with
  | forms different => exact .forms different.symm
  | scalars left right unequal => exact .scalars right left (sameScalar_comm b a ▸ unequal)
  | lengths different => exact .lengths different.symm
  | keys different => exact .keys fun alike => different alike.symm

theorem clash_of_simple (simple : a.form ≠ b.form ∨ a.form = .scalar)
    (unequal : sameScalar a b = false) : heap.Clash a b := by
  by_cases forms : a.form = b.form
  · have scalar := simple.resolve_left (not_not_intro forms)
    exact .scalars scalar (forms ▸ scalar) unequal
  · exact .forms forms

theorem tells_symm (tells : heap.Tells path a b) : heap.Tells path b a := by
  obtain ⟨x, y, here, there, clash⟩ := tells
  exact ⟨y, x, there, here, clash.symm⟩

theorem tells_nil : heap.Tells [] a b ↔ heap.Clash a b := by
  constructor
  · rintro ⟨x, y, ⟨⟩, ⟨⟩, clash⟩
    exact clash
  · exact fun clash => ⟨a, b, rfl, rfl, clash⟩

theorem tells_cons : heap.Tells (edge :: path) a b ↔
    ∃ x y, heap.part? a edge = some x ∧ heap.part? b edge = some y ∧ heap.Tells path x y := by
  constructor
  · rintro ⟨x, y, here, there, clash⟩
    obtain ⟨part, left, here⟩ := Option.bind_eq_some_iff.mp here
    obtain ⟨part', right, there⟩ := Option.bind_eq_some_iff.mp there
    exact ⟨part, part', left, right, x, y, here, there, clash⟩
  · rintro ⟨part, part', left, right, x, y, here, there, clash⟩
    exact ⟨x, y, Option.bind_eq_some_iff.mpr ⟨part, left, here⟩,
      Option.bind_eq_some_iff.mpr ⟨part', right, there⟩, clash⟩

end

/-! ### Copies -/

/-- Whether a relation pairs values with copies: the same scalars, and lists and maps with copies of
their parts, in whatever containers. -/
structure Copies (heap : Heap) (copy : Value → Value → Prop) : Prop where
  scalar : ∀ {a b}, copy a b → a.form = .scalar → b = a
  list : ∀ {p b}, copy (.list p) b →
    ∃ q, b = .list q ∧ List.Forall₂ copy (heap.list p) (heap.list q)
  map : ∀ {p b}, copy (.map p) b →
    ∃ q, b = .map q ∧
      List.Forall₂ (fun x y => x.1 = y.1 ∧ copy x.2 y.2) (heap.map p) (heap.map q)

section

variable {heap : Heap} {copy : Value → Value → Prop} {a b x y : Value} {edge : Edge}

theorem copies_eq (heap : Heap) : heap.Copies (· = ·) where
  scalar same _ := same.symm
  list same := ⟨_, same.symm, List.forall₂_same.mpr fun _ _ => rfl⟩
  map same := ⟨_, same.symm, List.forall₂_same.mpr fun _ _ => ⟨rfl, rfl⟩⟩

theorem keys_of_forall₂ {as bs : Dict Value}
    (pairs : List.Forall₂ (fun x y => x.1 = y.1 ∧ copy x.2 y.2) as bs) : as.keys = bs.keys := by
  induction pairs with
  | nil => rfl
  | cons both _ ih => exact congrArg₂ List.cons both.1 ih

theorem get?_of_forall₂ {as bs : Dict Value} {key : String}
    (pairs : List.Forall₂ (fun x y => x.1 = y.1 ∧ copy x.2 y.2) as bs)
    (here : as.get? key = some x) (there : bs.get? key = some y) : copy x y := by
  induction pairs with
  | nil => cases here
  | @cons entry entry' as bs both _ ih =>
    obtain ⟨k, v⟩ := entry
    obtain ⟨k', v'⟩ := entry'
    obtain ⟨rfl, copied⟩ := both
    rw [Dict.get?_cons] at here there
    split at here
    · rw [if_pos ‹_›] at there
      cases here
      cases there
      exact copied
    · rw [if_neg ‹_›] at there
      exact ih here there

/-- What a step leads to in a copy is a copy. -/
theorem Copies.part? (copies : heap.Copies copy) (pair : copy a b)
    (here : heap.part? a edge = some x) (there : heap.part? b edge = some y) : copy x y := by
  cases a with
  | list p =>
    obtain ⟨q, rfl, items⟩ := copies.list pair
    cases edge with
    | entry => cases here
    | item place =>
      obtain ⟨bound, rfl⟩ := List.getElem?_eq_some_iff.mp here
      obtain ⟨bound', rfl⟩ := List.getElem?_eq_some_iff.mp there
      exact items.get bound bound'
  | map p =>
    obtain ⟨q, rfl, entries⟩ := copies.map pair
    cases edge with
    | item => cases here
    | entry key => exact get?_of_forall₂ entries here there
  | _ => cases here

/-- A copy does not differ by itself. -/
theorem Copies.not_clash (copies : heap.Copies copy) (pair : copy a b)
    (number : a.isNaN = false) : ¬ heap.Clash a b := by
  intro clash
  cases clash with
  | forms different =>
    cases a with
    | list p =>
      obtain ⟨q, rfl, _⟩ := copies.list pair
      exact different rfl
    | map p =>
      obtain ⟨q, rfl, _⟩ := copies.map pair
      exact different rfl
    | _ => exact different (by rw [copies.scalar pair rfl])
  | scalars left right unequal =>
    cases copies.scalar pair left
    exact absurd unequal (by rw [sameScalar_self left number]; decide)
  | lengths different =>
    obtain ⟨q, same, items⟩ := copies.list pair
    cases same
    exact different items.length_eq
  | keys different =>
    obtain ⟨q, same, entries⟩ := copies.map pair
    cases same
    exact different (by rw [keys_of_forall₂ entries])

/-- **No path tells a value from a copy.** -/
theorem not_tells_of_copies (numeric : heap.Numeric) (copies : heap.Copies copy) (pair : copy a b)
    (number : a.isNaN = false) (path : List Edge) : ¬ heap.Tells path a b := by
  induction path generalizing a b with
  | nil => exact fun tells => copies.not_clash pair number (tells_nil.mp tells)
  | cons edge path ih =>
    intro tells
    obtain ⟨x, y, here, there, tells⟩ := tells_cons.mp tells
    exact ih (copies.part? pair here there) (numeric a x (part_of_part? here)) tells

end

/-! ### Comparing without a budget -/

/-- Whether comparing two values inside of pairs comes to comparing two of their parts. -/
inductive Compares (heap : Heap) :
    List (Address × Address) × Value × Value → List (Address × Address) × Value × Value → Prop
  | part {pairs : List (Address × Address)} {a b x y : Value} {s t : Address} {edge : Edge}
      (left : a.address? = some s) (right : b.address? = some t) (different : s ≠ t)
      (first : (s, t) ∉ pairs) (here : heap.part? a edge = some x)
      (there : heap.part? b edge = some y) :
      Compares heap ((s, t) :: pairs, x, y) (pairs, a, b)

/-- How many pairs of containers are left inside of pairs. -/
def pairRoom (heap : Heap) (pairs : List (Address × Address)) : Nat :=
  unmet (heap.addresses ×ˢ heap.addresses) pairs

theorem pairRoom_nil (heap : Heap) : heap.pairRoom [] = heap.size * heap.size := by
  rw [pairRoom, unmet_nil, List.length_product, length_addresses]

section

variable {heap : Heap} {pairs : List (Address × Address)} {a b x y : Value} {s t : Address}

/-- A step down to parts of a pair that was not met before leaves less room. -/
theorem pairRoom_cons_lt (left : a.address? = some s) (right : b.address? = some t)
    (first : (s, t) ∉ pairs) (here : x ∈ heap.parts a) (there : y ∈ heap.parts b) :
    heap.pairRoom ((s, t) :: pairs) < heap.pairRoom pairs := by
  refine unmet_cons_lt (List.mem_product.mpr ⟨?_, ?_⟩) first
  · exact mem_addresses.mpr (holds_of_mem_parts left here)
  · exact mem_addresses.mpr (holds_of_mem_parts right there)

/-- **No comparison goes on without end**: every step leaves less room. -/
theorem wellFounded_compares (heap : Heap) : WellFounded heap.Compares := by
  refine Subrelation.wf ?_ (InvImage.wf (fun call => heap.pairRoom call.1) Nat.lt_wfRel.wf)
  intro inner outer compares
  cases compares with
  | part left right different first here there =>
    exact pairRoom_cons_lt left right first (part_of_part? here) (part_of_part? there)

/-- Values that are not both lists or both maps are compared as they are. -/
theorem sameWithin_simple {budget : Nat} (simple : a.form ≠ b.form ∨ a.form = .scalar) :
    heap.sameWithin budget pairs a b = sameScalar a b := by
  cases a with
  | list => cases b with
    | list => simp [Value.form] at simple
    | _ => cases budget <;> rfl
  | map => cases b with
    | map => simp [Value.form] at simple
    | _ => cases budget <;> rfl
  | _ => cases b <;> cases budget <;> rfl

/-- **The budget does not matter** as long as it is greater than the room there is. -/
theorem sameWithin_of_room {budget budget' : Nat} (enough : heap.pairRoom pairs < budget)
    (enough' : heap.pairRoom pairs < budget') :
    heap.sameWithin budget pairs a b = heap.sameWithin budget' pairs a b := by
  induction budget generalizing budget' pairs a b with
  | zero => cases enough
  | succ budget ih =>
    obtain ⟨budget', rfl⟩ : ∃ below, budget' = below + 1 := ⟨budget' - 1, by omega⟩
    have below : ∀ {s t}, a.address? = some s → b.address? = some t → (s, t) ∉ pairs →
        ∀ x ∈ heap.parts a, ∀ y ∈ heap.parts b,
          heap.sameWithin budget ((s, t) :: pairs) x y =
            heap.sameWithin budget' ((s, t) :: pairs) x y := by
      intro s t left right first x here y there
      have less := pairRoom_cons_lt left right first here there
      exact ih (by omega) (by omega)
    rcases pair_cases a b with ⟨p, q, rfl, rfl⟩ | ⟨p, q, rfl, rfl⟩ | simple
    · rw [sameWithin, sameWithin]
      by_cases first : (Address.list p, Address.list q) ∈ pairs
      · simp [first]
      · exact congrArg (_ || ·) (sameItems_congr (below rfl rfl first))
    · rw [sameWithin, sameWithin]
      by_cases first : (Address.map p, Address.map q) ∈ pairs
      · simp [first]
      · exact congrArg (_ || ·) (sameEntries_congr (below rfl rfl first))
    · rw [sameWithin_simple simple, sameWithin_simple simple]

/-- Two values compared inside of pairs, with as much budget as that takes. -/
def compared (heap : Heap) (pairs : List (Address × Address)) (a b : Value) : Bool :=
  heap.sameWithin (heap.pairRoom pairs + 1) pairs a b

theorem sameWithin_eq_compared {budget : Nat} (enough : heap.pairRoom pairs < budget) :
    heap.sameWithin budget pairs a b = heap.compared pairs a b :=
  sameWithin_of_room enough (Nat.lt_succ_self _)

theorem same_eq_compared (heap : Heap) (a b : Value) : heap.same a b = heap.compared [] a b :=
  sameWithin_eq_compared (by rw [pairRoom_nil]; exact Nat.lt_succ_self _)

theorem compared_list {p q : Nat} (different : p ≠ q)
    (first : (Address.list p, Address.list q) ∉ pairs) :
    heap.compared pairs (.list p) (.list q) =
      sameItems (heap.compared ((.list p, .list q) :: pairs)) (heap.list p) (heap.list q) := by
  rw [compared, sameWithin, beq_false_of_ne different, List.contains_eq_mem, decide_eq_false first,
    Bool.false_or, Bool.false_or]
  exact sameItems_congr fun x here y there => sameWithin_eq_compared
    (pairRoom_cons_lt (a := .list p) (b := .list q) rfl rfl first here there)

theorem compared_map {p q : Nat} (different : p ≠ q)
    (first : (Address.map p, Address.map q) ∉ pairs) :
    heap.compared pairs (.map p) (.map q) =
      sameEntries (heap.compared ((.map p, .map q) :: pairs)) (heap.map p) (heap.map q) := by
  rw [compared, sameWithin, beq_false_of_ne different, List.contains_eq_mem, decide_eq_false first,
    Bool.false_or, Bool.false_or]
  exact sameEntries_congr fun x here y there => sameWithin_eq_compared
    (pairRoom_cons_lt (a := .map p) (b := .map q) rfl rfl first here there)

/-! ### Differences are found, and none is invented -/

/-- **An answer `false` comes from a path** that tells the two apart. -/
theorem exists_tells (distinct : heap.Distinct) {budget : Nat}
    (different : heap.sameWithin budget pairs a b = false) : ∃ path, heap.Tells path a b := by
  induction budget generalizing pairs a b with
  | zero =>
    rcases pair_cases a b with ⟨p, q, rfl, rfl⟩ | ⟨p, q, rfl, rfl⟩ | simple
    · cases different
    · cases different
    · exact ⟨[], tells_nil.mpr (clash_of_simple simple (sameWithin_simple simple ▸ different))⟩
  | succ budget ih =>
    rcases pair_cases a b with ⟨p, q, rfl, rfl⟩ | ⟨p, q, rfl, rfl⟩ | simple
    · rw [sameWithin, Bool.or_eq_false_iff] at different
      rcases exists_of_sameItems different.2 with lengths | ⟨place, x, y, here, there, unequal⟩
      · exact ⟨[], tells_nil.mpr (.lengths lengths)⟩
      · obtain ⟨path, tells⟩ := ih unequal
        exact ⟨.item place :: path, tells_cons.mpr ⟨x, y, here, there, tells⟩⟩
    · rw [sameWithin, Bool.or_eq_false_iff] at different
      rcases exists_of_sameEntries (distinct p) (distinct q) different.2 with
        ⟨key, keys⟩ | ⟨key, x, y, here, there, unequal⟩
      · exact ⟨[], tells_nil.mpr (.keys keys)⟩
      · obtain ⟨path, tells⟩ := ih unequal
        exact ⟨.entry key :: path, tells_cons.mpr ⟨x, y, here, there, tells⟩⟩
    · exact ⟨[], tells_nil.mpr (clash_of_simple simple (sameWithin_simple simple ▸ different))⟩

/-- **What an answer `true` says** about values that are not taken for granted: they do not differ
themselves, and the answer for every two parts in the same place is `true`. -/
theorem not_clash_of_compared (distinct : heap.Distinct) (different : a ≠ b)
    (first : ∀ {s t}, a.address? = some s → b.address? = some t → (s, t) ∉ pairs)
    (equal : heap.compared pairs a b = true) :
    ¬ heap.Clash a b ∧ ∀ {edge x y}, heap.part? a edge = some x → heap.part? b edge = some y →
      ∃ s t, a.address? = some s ∧ b.address? = some t ∧
        heap.compared ((s, t) :: pairs) x y = true := by
  rcases pair_cases a b with ⟨p, q, rfl, rfl⟩ | ⟨p, q, rfl, rfl⟩ | simple
  · rw [compared_list (fun same => different (congrArg _ same)) (first rfl rfl)] at equal
    have items := forall₂_of_sameItems equal
    constructor
    · intro clash
      cases clash with
      | forms other => exact other rfl
      | scalars scalar => cases scalar
      | lengths other => exact other items.length_eq
    · intro edge x y here there
      cases edge with
      | entry => cases here
      | item place =>
        obtain ⟨bound, rfl⟩ := List.getElem?_eq_some_iff.mp here
        obtain ⟨bound', rfl⟩ := List.getElem?_eq_some_iff.mp there
        exact ⟨_, _, rfl, rfl, items.get bound bound'⟩
  · rw [compared_map (fun same => different (congrArg _ same)) (first rfl rfl)] at equal
    constructor
    · intro clash
      cases clash with
      | forms other => exact other rfl
      | scalars scalar => cases scalar
      | keys other => exact other (keys_of_sameEntries (distinct p) equal _)
    · intro edge x y here there
      cases edge with
      | item => cases here
      | entry key => exact ⟨_, _, rfl, rfl, value_of_sameEntries equal here there⟩
  · rw [compared, sameWithin_simple simple] at equal
    have forms : a.form = b.form := by
      by_contra other
      rw [sameScalar_of_form_ne other] at equal
      cases equal
    have scalar : a.form = .scalar := simple.resolve_left (not_not_intro forms)
    constructor
    · intro clash
      cases clash with
      | forms other => exact other forms
      | scalars _ _ unequal => exact absurd equal (ne_true_of_eq_false unequal)
      | lengths | keys => cases scalar
    · intro edge x y here _
      have member : x ∈ heap.parts a := part_of_part? here
      cases a with
      | list | map => cases scalar
      | _ => cases member

/-- Whether no path of up to a length tells apart what pairs of addresses stand for. -/
def Alike (heap : Heap) (pairs : List (Address × Address)) (length : Nat) : Prop :=
  ∀ {a b : Value} {s t : Address}, a.address? = some s → b.address? = some t → (s, t) ∈ pairs →
    ∀ path, path.length ≤ length → ¬ heap.Tells path a b

/-- No path that is shorter than the shortest tells its ends apart. -/
theorem Alike.cons {length : Nat} (alike : heap.Alike pairs (length + 1))
    (left : a.address? = some s) (right : b.address? = some t)
    (shortest : ∀ path, heap.Tells path a b → length + 1 ≤ path.length) :
    heap.Alike ((s, t) :: pairs) length := by
  intro a' b' s' t' left' right' member path short tells
  rcases List.mem_cons.mp member with here | before
  · cases here
    cases Value.eq_of_address? left left'
    cases Value.eq_of_address? right right'
    have := shortest path tells
    omega
  · exact alike left' right' before path (Nat.le_succ_of_le short) tells

/-- **A shortest path that tells two values apart is found.** It passes no pair of containers twice,
so nothing that it passes is among the pairs that count as equal. -/
theorem compared_of_shortest (numeric : heap.Numeric) (distinct : heap.Distinct)
    {pairs : List (Address × Address)} {a b : Value} {path : List Edge} (number : a.isNaN = false)
    (tells : heap.Tells path a b)
    (shortest : ∀ other, heap.Tells other a b → path.length ≤ other.length)
    (alike : heap.Alike pairs path.length) : heap.compared pairs a b = false := by
  by_contra found
  rw [Bool.not_eq_false] at found
  have different : a ≠ b := by
    rintro rfl
    exact not_tells_of_copies numeric (copies_eq heap) rfl number path tells
  have first : ∀ {s t}, a.address? = some s → b.address? = some t → (s, t) ∉ pairs :=
    fun left right member => alike left right member path le_rfl tells
  obtain ⟨same, parts⟩ := not_clash_of_compared distinct different first found
  cases path with
  | nil => exact same (tells_nil.mp tells)
  | cons edge path =>
    obtain ⟨x, y, here, there, below⟩ := tells_cons.mp tells
    obtain ⟨s, t, left, right, equal⟩ := parts here there
    have later : ∀ other, heap.Tells other x y → path.length ≤ other.length := fun other tells =>
      Nat.le_of_succ_le_succ (shortest (edge :: other) (tells_cons.mpr ⟨x, y, here, there, tells⟩))
    rw [compared_of_shortest numeric distinct (numeric a x (part_of_part? here)) below later
      (alike.cons left right shortest)] at equal
    cases equal

/-- **Two values are not the same if and only if a path tells them apart.** -/
theorem same_eq_false_iff (numeric : heap.Numeric) (distinct : heap.Distinct)
    (number : a.isNaN = false) : heap.same a b = false ↔ ∃ path, heap.Tells path a b := by
  constructor
  · exact fun different => exists_tells distinct different
  · intro tells
    obtain ⟨path, tells, shortest⟩ :=
      exists_minimalFor_of_wellFoundedLT (fun path => heap.Tells path a b) List.length tells
    rw [same_eq_compared]
    exact compared_of_shortest numeric distinct number tells
      (fun other tells => (le_total _ _).elim id (shortest tells)) fun _ _ member => nomatch member

/-- **Values are the same if and only if no path tells them apart.** Comparing ends, with a budget
that is never used up, and which value comes first does not matter. The answer is `false` exactly if
a path that both values have leads to two scalars that are not equal, to values of which one is a
list or a map and the other is not, to lists of different lengths or to maps with different keys. So
every value is the same as itself and as every copy of it. -/
theorem same_exactly (numeric : heap.Numeric) (distinct : heap.Distinct) (a b : Value)
    (number : a.isNaN = false) (number' : b.isNaN = false) :
    WellFounded heap.Compares ∧
      (∀ budget, heap.size * heap.size < budget → heap.sameWithin budget [] a b = heap.same a b) ∧
      heap.same a b = heap.same b a ∧
      (heap.same a b = false ↔ ∃ path x y,
        heap.follow? a path = some x ∧ heap.follow? b path = some y ∧ heap.Clash x y) ∧
      heap.same a a = true ∧
      ∀ copy, heap.Copies copy → copy a b → heap.same a b = true := by
  have copied : ∀ {b} copy, heap.Copies copy → copy a b → heap.same a b = true := by
    intro b copy copies pair
    by_contra different
    obtain ⟨path, tells⟩ :=
      (same_eq_false_iff numeric distinct number).mp (eq_false_of_ne_true different)
    exact not_tells_of_copies numeric copies pair number path tells
  refine ⟨heap.wellFounded_compares, ?_, ?_, same_eq_false_iff numeric distinct number,
    copied _ (copies_eq heap) rfl, copied⟩
  · intro budget enough
    rw [same_eq_compared]
    exact sameWithin_eq_compared (by rwa [pairRoom_nil])
  · have swapped : heap.same a b = false ↔ heap.same b a = false := by
      rw [same_eq_false_iff numeric distinct number, same_eq_false_iff numeric distinct number']
      exact exists_congr fun path => ⟨tells_symm, tells_symm⟩
    cases there : heap.same b a with
    | false => exact swapped.mpr there
    | true =>
      by_contra different
      exact absurd (swapped.mp (eq_false_of_ne_true different)) (by rw [there]; decide)

end

end Heap

namespace Twins

/-- Maps that contain themselves or each other. The second has the identifier of the first as text,
the fourth has another one. -/
def memory : Heap where
  maps := #[[("id", .int 7), ("self", .map 0)], [("self", .map 1), ("id", .string "7")],
    [("id", .int 7), ("self", .map 3)], [("id", .int 8), ("self", .map 2)]]

theorem numeric : memory.Numeric := Heap.numeric_of_stored (by decide) (by decide)

theorem distinct : memory.Distinct := Heap.distinct_of_stored (by decide)

example : memory.same (.map 0) (.map 1) = true := by decide

/-- **A difference behind two maps that recur is found.** -/
theorem difference_found :
    memory.Numeric ∧ memory.Distinct ∧ memory.same (.map 0) (.map 2) = false ∧
      memory.same (.map 2) (.map 0) = false ∧ memory.same (.map 0) (.map 0) = true := by
  obtain ⟨_, _, swapped, found, itself, _⟩ :=
    Heap.same_exactly numeric distinct (.map 0) (.map 2) rfl rfl
  have different : memory.same (.map 0) (.map 2) = false :=
    found.mpr ⟨[.entry "self", .entry "id"], .int 7, .int 8, by decide, by decide,
      .scalars rfl rfl (by decide)⟩
  exact ⟨numeric, distinct, different, swapped.symm.trans different, itself⟩

end Twins

end FieldResolver.Template
