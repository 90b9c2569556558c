/-
**Whole numbers in conditions and updates.**

A number attribute is unmarshalled exactly, but conditions and updates work on the double that its
text is read as. Whole numbers are therefore rounded before they are compared, added and subtracted,
and a sum or a difference once more. Rounding keeps the order, so no comparison is the wrong way
round, but numbers beyond `2 ^ 53` may be brought together.

* `exists_float?_of_unmarshal`: the double of a number attribute;
* `Attribute.Written`: how a whole number is written into a number attribute;
* `Calculates`: how two number attributes are compared, added and subtracted;
* `integers_rounded`: all of this is that of the rounded numbers, and exact up to `2 ^ 53`;
* `Large.differences_lost`: numbers beyond that are the same for conditions, and sums are not exact.
-/

import FieldResolver.Proofs.Decimal.Whole
import FieldResolver.Proofs.Table.Attributes

namespace FieldResolver

namespace Attribute

open Decimal (Denotes rounded)

/-! ### Number attributes as doubles -/

section

variable {value : Json} {n : Int}

/-- A number that is whole was written as such. -/
theorem int?_of_number {text : String} (read : number text = .ok (.int n)) :
    Decimal.int? text.toList = some n := by
  unfold number at read
  split at read
  · rename_i whole
    cases read
    exact whole
  · split at read
    · split at read <;> cases read
    · cases read

/-- A value that is unmarshalled as a whole number is the text of a whole number. -/
theorem exists_text_of_unmarshal (read : unmarshal value = .ok (.int n)) :
    ∃ text, value = tagged "N" (.string text) ∧ Decimal.int? text.toList = some n := by
  unfold unmarshal at read
  split at read
  case h_3 text => exact ⟨text, rfl, int?_of_number read⟩
  case h_6 items => cases inner : unmarshalItems items <;> rw [inner] at read <;> cases read
  case h_7 fields => cases inner : unmarshalFields fields <;> rw [inner] at read <;> cases read
  case h_10 items => cases inner : items.mapM numberMember <;> rw [inner] at read <;> cases read
  all_goals cases read

/-- **A value that is unmarshalled as a whole number is compared as the double nearest to it.** -/
theorem exists_float?_of_unmarshal (read : unmarshal value = .ok (.int n)) :
    ∃ x, float? value = some x ∧ Denotes x (rounded n) := by
  obtain ⟨text, rfl, int⟩ := exists_text_of_unmarshal read
  exact Decimal.exists_float?_of_int? int

theorem natAbs_le_of_unmarshal (read : unmarshal value = .ok (.int n)) : n.natAbs ≤ 2 ^ 63 := by
  obtain ⟨text, -, int⟩ := exists_text_of_unmarshal read
  obtain ⟨negative, digits, -, -, -, size, small⟩ := Decimal.digits_of_int? int
  cases negative with
  | true => rw [if_pos rfl] at size; omega
  | false => rw [if_neg Bool.false_ne_true] at size; omega

/-! ### Doubles as number attributes -/

theorem denotes_wholeLimit : Denotes wholeLimit 9000000000000000 := by
  have canonical : Decimal.Canonical 9000000000000000 0 :=
    ⟨by norm_num, by norm_num, .inl (by norm_num)⟩
  have rounds : Decimal.Rounds 9000000000000000 0 ((90 : ℕ) * 10 ^ (14 : ℤ)) := by
    have self := Decimal.rounds_self 9000000000000000 0
    norm_num at self ⊢
    exact self
  have limit : wholeLimit = Decimal.ofParts 9000000000000000 0 (by norm_num) :=
    Decimal.float_ofScientific canonical _ (by norm_num) (by norm_num) (by omega) rounds
  rw [limit]
  exact ⟨_, .finite canonical (by norm_num) .positive (by norm_num) (by norm_num), rfl⟩

/-- Whether a number attribute stands for a whole number: conditions read it as the number, and
where the number is below the limit it is also the text. -/
structure Written (value : Json) (n : Int) : Prop where
  double : ∃ x, float? value = some x ∧ Denotes x n
  text : n.natAbs < 9000000000000000 → value = tagged "N" (.string (Decimal.intText n))

/-- A number attribute with the text of a whole number is unmarshalled as the number. -/
theorem unmarshal_intText (small : n.natAbs < 2 ^ 63) :
    unmarshal (tagged "N" (.string (Decimal.intText n))) = .ok (.int n) := by
  have read : Decimal.int? (Decimal.intText n).toList = some n := by
    rw [Decimal.intText, String.toList_ofList]
    exact Decimal.int?_intChars (by omega) (by omega)
  show number (Decimal.intText n) = _
  rw [number, read]

/-- A double that means a whole number is written as the number below the limit, and in all its
digits otherwise. -/
theorem written_ofFloat {x : Float} (denotes : Denotes x n) : Written (ofFloat x) n := by
  have below : x.abs < wholeLimit ↔ (n.natAbs : ℤ) < 9000000000000000 :=
    denotes.abs.lt_iff denotes_wholeLimit
  by_cases small : n.natAbs < 9000000000000000
  · have text : floatText x = Decimal.intText n := by
      rw [floatText, denotes.whole?]
      exact if_pos (below.mpr (by omega))
    have value : ofFloat x = tagged "N" (.string (Decimal.intText n)) := by rw [ofFloat, text]
    refine ⟨?_, fun _ => value⟩
    rw [value]
    obtain ⟨y, read, double⟩ := exists_float?_of_unmarshal (unmarshal_intText (n := n) (by omega))
    have same : rounded n = n := Decimal.rounded_eq_self (by omega)
    exact ⟨y, read, same ▸ double⟩
  · have text : floatText x = Decimal.Layout.plain.render x := by
      rw [floatText, denotes.whole?]
      exact if_neg (mt below.mp (by omega))
    refine ⟨⟨x, ?_, denotes⟩, fun less => absurd less small⟩
    show Decimal.float? (floatText x).toList = some x
    rw [text, Decimal.Layout.render, String.toList_ofList]
    exact Decimal.float?_plain denotes.isFinite

end

end Attribute

namespace Table

open Attribute (unmarshal compare? exists_float?_of_unmarshal Written)
open Decimal (Denotes rounded)
open Expression (ResolvedUpdate)

/-! ### Conditions and updates -/

/-- How two number attributes are compared, added and subtracted: by their order in every
comparison of operands, and by their sum and their difference in every assignment and addition. -/
structure Calculates (x y : Json) (order : Ordering) (sum difference : Int) : Prop where
  compared : ∀ {item : Item} {left right : Operand} (relation : Relation),
    left.of? item = some x → right.of? item = some y →
      (Condition.compare left relation right).holds item = relation.holds (some order)
  plus : ∀ {item : Item} {left right : Operand} (name : String),
    left.of item = .ok x → right.of item = .ok y → ∃ value, Written value sum ∧
      Update.apply { set := [(name, .plus (.operand left) (.operand right))] } item =
        .ok (item.insert name value)
  minus : ∀ {item : Item} {left right : Operand} (name : String),
    left.of item = .ok x → right.of item = .ok y → ∃ value, Written value difference ∧
      Update.apply { set := [(name, .minus (.operand left) (.operand right))] } item =
        .ok (item.insert name value)
  add : ∀ {item : Item} (name : String), item.get? name = some x → ∃ value, Written value sum ∧
    Update.apply { add := [(name, y)] } item = .ok (item.insert name value)

section

variable {x y : Json} {a b : Int}

/-- An update that sets one attribute. -/
theorem apply_set {item : Item} {value : SetValue String Operand} {z : Json} (name : String)
    (computed : value.of item = .ok z) :
    Update.apply { set := [(name, value)] } item = .ok (item.insert name z) := by
  simp only [Update.apply, List.foldlM_cons, List.foldlM_nil, computed]
  rfl

/-- An update that adds to one attribute. -/
theorem apply_add {item : Item} {value z : Json} (name : String)
    (computed : added (item.get? name) value = .ok z) :
    Update.apply { add := [(name, value)] } item = .ok (item.insert name z) := by
  simp only [Update.apply, List.foldlM_cons, List.foldlM_nil, addTo, computed]
  rfl

/-- A sum of two numbers of the signed range is far below the greatest double. -/
theorem log2_le_of_signed {n k : Int} (first : n.natAbs ≤ 2 ^ 63) (second : k.natAbs ≤ 2 ^ 63) :
    (n + k).natAbs.log2 ≤ 1022 := by
  have short := Decimal.log2_le_of_lt (n := (n + k).natAbs) (k := 64) (by omega)
  omega

/-- **Number attributes are compared, added and subtracted as the doubles nearest to them.** -/
theorem calculates_rounded (readX : unmarshal x = .ok (.int a))
    (readY : unmarshal y = .ok (.int b)) :
    Calculates x y (compare (rounded a) (rounded b)) (rounded (rounded a + rounded b))
      (rounded (rounded a - rounded b)) := by
  obtain ⟨u, floatX, denotesX⟩ := exists_float?_of_unmarshal readX
  obtain ⟨v, floatY, denotesY⟩ := exists_float?_of_unmarshal readY
  have sizeX := Decimal.natAbs_rounded_le (Attribute.natAbs_le_of_unmarshal readX)
  have sizeY := Decimal.natAbs_rounded_le (Attribute.natAbs_le_of_unmarshal readY)
  have sum := Attribute.written_ofFloat (denotesX.add denotesY (log2_le_of_signed sizeX sizeY))
  have difference := Attribute.written_ofFloat (denotesX.sub denotesY
    (log2_le_of_signed sizeX (by rwa [Int.natAbs_neg])))
  have combined : ∀ combine, arithmetic combine x y = .ok (Attribute.ofFloat (combine u v)) := by
    intro combine
    rw [arithmetic, floatX, floatY]
  refine ⟨fun relation left right => ?_, fun name left right => ⟨_, sum, apply_set name ?_⟩,
    fun name left right => ⟨_, difference, apply_set name ?_⟩,
    fun name found => ⟨_, sum, apply_add name ?_⟩⟩
  · have order : compare? x y = some (compare (rounded a) (rounded b)) := by
      simp only [compare?, floatX, floatY, denotesX.compareFloats denotesY]
    rw [Condition.holds, ofBoth, left, right]
    exact congrArg relation.holds order
  · simp only [SetValue.of, left, right]
    exact combined (· + ·)
  · simp only [SetValue.of, left, right]
    exact combined (· - ·)
  · obtain ⟨text, rfl, -⟩ := Attribute.exists_text_of_unmarshal readY
    rw [found]
    simp only [added, Attribute.typed?, Attribute.tagged, floatX]
    rw [Attribute.tagged] at floatY
    rw [floatY]

/-- **Whole numbers are compared, added and subtracted as the doubles nearest to them.** For all
numbers that are unmarshalled as whole, comparisons decide by the order of the rounded numbers, and
sums and differences are those of the rounded numbers, rounded again. Rounding keeps the order, so a
number is never found to be greater than one that it is not greater than. Numbers up to `2 ^ 53` are
not changed by rounding: they are compared exactly, and a sum or a difference up to there is
exact. -/
theorem integers_rounded (readX : unmarshal x = .ok (.int a))
    (readY : unmarshal y = .ok (.int b)) :
    Calculates x y (compare (rounded a) (rounded b)) (rounded (rounded a + rounded b))
        (rounded (rounded a - rounded b)) ∧
      (a ≤ b → compare (rounded a) (rounded b) ≠ .gt) ∧
      (a.natAbs ≤ 2 ^ 53 → b.natAbs ≤ 2 ^ 53 →
        Calculates x y (compare a b) (rounded (a + b)) (rounded (a - b))) ∧
      ∀ n : Int, n.natAbs ≤ 2 ^ 53 → rounded n = n := by
  refine ⟨calculates_rounded readX readY, fun le => ?_, fun smallA smallB => ?_,
    fun n => Decimal.rounded_eq_self⟩
  · rw [ne_eq, Int.compare_eq_gt, not_lt]
    exact Decimal.rounded_mono le
  · have calculates := calculates_rounded readX readY
    rwa [Decimal.rounded_eq_self smallA, Decimal.rounded_eq_self smallB] at calculates

end

/-! ### Numbers that are brought together -/

namespace Large

/-- The number attribute of a whole number. -/
def number (n : Int) : Json := Attribute.tagged "N" (.string (Decimal.intText n))

/-- An item with the first number that is not a double. -/
def item : Item := [("n", number 9007199254740993)]

theorem item_read : unmarshal (number 9007199254740993) = .ok (.int 9007199254740993) :=
  Attribute.unmarshal_intText (by norm_num)

theorem neighbour_read : unmarshal (number 9007199254740992) = .ok (.int 9007199254740992) :=
  Attribute.unmarshal_intText (by norm_num)

/-- The number and its neighbour are the same, and the difference is none. -/
theorem neighbours_together :
    Calculates (number 9007199254740993) (number 9007199254740992) .eq 18014398509481984 0 := by
  have order : compare (rounded 9007199254740993) (rounded 9007199254740992) = .eq := by
    decide +kernel
  have sum : rounded (rounded 9007199254740993 + rounded 9007199254740992) =
      18014398509481984 := by decide +kernel
  have difference : rounded (rounded 9007199254740993 - rounded 9007199254740992) = 0 := by
    decide +kernel
  have calculates := (integers_rounded item_read neighbour_read).1
  rwa [order, sum, difference] at calculates

/-- **Numbers that are unmarshalled apart are the same for a condition, and a sum that fits is one
too small.** -/
theorem differences_lost :
    unmarshal (number 9007199254740993) = .ok (.int 9007199254740993) ∧
      unmarshal (number 9007199254740992) = .ok (.int 9007199254740992) ∧
      (Condition.compare (.attribute "n") .eq (.value (number 9007199254740992))).holds item =
        true ∧
      (Condition.compare (.attribute "n") .gt (.value (number 9007199254740992))).holds item =
        false ∧
      Update.apply { add := [("n", number (-100000000000000))] } item =
        .ok [("n", number 8907199254740992)] := by
  have order : compare (rounded 9007199254740993) (rounded 9007199254740992) = .eq := by
    decide +kernel
  have sum : rounded (rounded 9007199254740993 + rounded (-100000000000000)) =
      8907199254740992 := by decide +kernel
  have same := calculates_rounded item_read neighbour_read
  have less := calculates_rounded item_read
    (Attribute.unmarshal_intText (n := -100000000000000) (by norm_num))
  rw [order] at same
  rw [sum] at less
  refine ⟨item_read, neighbour_read, ?_, ?_, ?_⟩
  · exact same.compared .eq rfl rfl
  · exact same.compared .gt rfl rfl
  · obtain ⟨value, written, done⟩ := @less.add item "n" rfl
    have text : value = number 8907199254740992 := written.text (by norm_num)
    rw [text] at done
    exact done

end Large

end Table

end FieldResolver
