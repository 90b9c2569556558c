/-
**Arithmetic on whole numbers.**

The whole numbers of templates have 64 bits. An operator on two of them gives the exact result
where there is one and it fits, and a fault otherwise; a wrapped result is never given. The one
result that is refused although it fits is the remainder of the least number by minus one: it is
refused together with the quotient.

* `Operator.Means`: what the result of an operator is, said without computing it, and
  `Operator.means_iff`, that it is what is computed;
* `inRange_tdiv_iff`, `inRange_tmod`: the one quotient that does not fit, and that remainders fit;
* `Counts`: whether numbers count from one to another, and `counts_steps`, that ranges do;
* `arithmetic_exact`: expressions with operators, negation and ranges.
-/

import FieldResolver.Proofs.Template.Loops
import Mathlib.Algebra.Order.Ring.Int
import Mathlib.Data.List.Chain
import Mathlib.Tactic.Linarith

namespace FieldResolver.Template

/-! ### Results on the integers -/

/-- Whether a quotient and a rest are those of a division toward zero: the rest is smaller than the
divisor and has the sign of the dividend. -/
structure Divides (dividend divisor quotient rest : Int) : Prop where
  sum : divisor * quotient + rest = dividend
  small : rest.natAbs < divisor.natAbs
  sign : 0 ≤ dividend * rest

namespace Divides

variable {dividend divisor quotient rest : Int}

theorem ne_zero (divides : Divides dividend divisor quotient rest) : divisor ≠ 0 := by
  rintro rfl
  exact Nat.not_lt_zero _ divides.small

/-- A dividend of zero leaves no rest. -/
theorem rest_eq_zero (divides : Divides 0 divisor quotient rest) : rest = 0 := by
  have multiple : divisor ∣ rest := ⟨-quotient, by linarith [divides.sum]⟩
  exact Int.eq_zero_of_dvd_of_natAbs_lt_natAbs multiple divides.small

/-- The rest lies on the side of zero where the dividend lies. -/
theorem rest_bounds (divides : Divides dividend divisor quotient rest) :
    (0 ≤ dividend → 0 ≤ rest) ∧ (dividend ≤ 0 → rest ≤ 0) := by
  rcases lt_trichotomy dividend 0 with negative | rfl | positive
  · have below := nonpos_of_mul_nonneg_right divides.sign negative
    exact ⟨fun nonneg => absurd nonneg (not_le.mpr negative), fun _ => below⟩
  · rw [divides.rest_eq_zero]
    exact ⟨fun _ => le_rfl, fun _ => le_rfl⟩
  · have above := nonneg_of_mul_nonneg_right divides.sign positive
    exact ⟨fun _ => above, fun nonpos => absurd nonpos (not_le.mpr positive)⟩

end Divides

/-- The quotient and the rest of a division toward zero are the ones that are computed. -/
theorem divides_iff {dividend divisor quotient rest : Int} :
    Divides dividend divisor quotient rest ↔
      divisor ≠ 0 ∧ dividend.tdiv divisor = quotient ∧ dividend.tmod divisor = rest := by
  constructor
  · intro divides
    have nonzero := divides.ne_zero
    have sum : rest + divisor * quotient = dividend := by linarith [divides.sum]
    have small := divides.small
    obtain ⟨above, below⟩ := divides.rest_bounds
    refine ⟨nonzero, ?_⟩
    rcases le_total 0 dividend with nonneg | nonpos
    · have side := above nonneg
      exact (Int.tdiv_tmod_unique nonneg nonzero).mpr ⟨sum, side, by omega⟩
    · have side := below nonpos
      exact (Int.tdiv_tmod_unique' nonpos nonzero).mpr ⟨sum, by omega, side⟩
  · rintro ⟨nonzero, rfl, rfl⟩
    refine ⟨Int.mul_tdiv_add_tmod _ _, ?_, ?_⟩
    · rw [Int.natAbs_tmod]
      exact Nat.mod_lt _ (Int.natAbs_pos.mpr nonzero)
    · rcases le_total 0 dividend with nonneg | nonpos
      · exact mul_nonneg nonneg (Int.tmod_nonneg _ nonneg)
      · have side := Int.tmod_nonneg divisor (Int.neg_nonneg_of_nonpos nonpos)
        rw [Int.neg_tmod] at side
        exact mul_nonneg_of_nonpos_of_nonpos nonpos (by omega)

namespace Operator

/-- What the result of an operator is: the sum, the difference, the product, the quotient toward
zero or the rest that it leaves. There is no quotient and no rest by zero. -/
def Means : Operator → Int → Int → Int → Prop
  | .add, a, b, result => result = a + b
  | .sub, a, b, result => result = a - b
  | .mul, a, b, result => result = a * b
  | .div, a, b, result => ∃ rest, Divides a b result rest
  | .rem, a, b, result => ∃ quotient, Divides a b quotient result

/-- **What is computed is the result**, where there is one. -/
theorem means_iff {op : Operator} {a b result : Int} :
    op.Means a b result ↔ ¬ (op.divides = true ∧ b = 0) ∧ result = op.onInts a b := by
  cases op <;> simp [Means, divides, onInts, divides_iff, eq_comm]

/-- How an operator on numbers is written in an expression. -/
def written : Operator → BinaryOp
  | .add => .add
  | .sub => .sub
  | .mul => .mul
  | .div => .div
  | .rem => .rem

/-- The fault of an operator that gives no result. -/
def refusal (op : Operator) (divisor : Int) : Fault :=
  if op.divides = true ∧ divisor = 0 then .divisionByZero else .overflow op.symbol

end Operator

/-! ### Results that fit -/

theorem inRange_iff {n : Int} :
    inRange n = true ↔ -0x8000000000000000 ≤ n ∧ n ≤ 0x7fffffffffffffff := by
  rw [inRange, decide_eq_true_iff, minInt, maxInt]

section

variable {a b : Int} (inside : inRange a = true)

include inside

/-- The least number by minus one is the one quotient that does not fit. -/
theorem inRange_tdiv_iff (nonzero : b ≠ 0) :
    inRange (a.tdiv b) = true ↔ ¬ (a = minInt ∧ b = -1) := by
  rw [inRange_iff] at inside ⊢
  rw [minInt]
  by_cases minus : b = -1
  · subst minus
    rw [Int.tdiv_neg, Int.tdiv_one]
    omega
  · have smaller := Int.natAbs_tdiv_le_natAbs a b
    simp only [minus, and_false, not_false_eq_true, iff_true]
    rcases lt_or_gt_of_ne nonzero with negative | positive
    · -- A divisor below minus one halves the size at least.
      have halved : (a.tdiv b).natAbs ≤ a.natAbs / 2 := by
        rw [Int.natAbs_tdiv]
        exact Nat.div_le_div_left (by omega) (by decide)
      omega
    · rcases le_total 0 a with nonneg | nonpos
      · have side := Int.tdiv_nonneg nonneg positive.le
        omega
      · have side := Int.tdiv_nonneg (Int.neg_nonneg_of_nonpos nonpos) positive.le
        rw [Int.neg_tdiv] at side
        omega

/-- Remainders fit. -/
theorem inRange_tmod : inRange (a.tmod b) = true := by
  rw [inRange_iff] at inside ⊢
  have smaller : (a.tmod b).natAbs ≤ a.natAbs := by
    rw [Int.natAbs_tmod]
    exact Nat.mod_le _ _
  rcases le_total 0 a with nonneg | nonpos
  · have side := Int.tmod_nonneg b nonneg
    omega
  · have side := Int.tmod_nonneg b (Int.neg_nonneg_of_nonpos nonpos)
    rw [Int.neg_tmod] at side
    omega

/-- Whether a result is given: it fits, and is not the remainder of the least number by minus
one. -/
theorem Operator.fits_iff {op : Operator} (defined : ¬ (op.divides = true ∧ b = 0)) :
    op.fits a b = true ↔
      inRange (op.onInts a b) = true ∧ ¬ (op = .rem ∧ a = minInt ∧ b = -1) := by
  cases op with
  | rem =>
    have nonzero : b ≠ 0 := fun zero => defined ⟨rfl, zero⟩
    have fits := inRange_tmod (b := b) inside
    simp [Operator.fits, Operator.onInts, inRange_tdiv_iff inside nonzero, fits]
  | _ => simp [Operator.fits]

/-- An operator on two numbers gives its result or the fault of having none. -/
theorem Operator.applyInts_eq (op : Operator) :
    op.applyInts a b =
      if ¬ (op.divides = true ∧ b = 0) ∧ inRange (op.onInts a b) = true ∧
          ¬ (op = .rem ∧ a = minInt ∧ b = -1) then .ok (.int (op.onInts a b))
      else .error (op.refusal b) := by
  by_cases undefined : op.divides = true ∧ b = 0
  · simp [Operator.applyInts, Operator.refusal, undefined]
  · have fits := Operator.fits_iff (b := b) inside undefined
    rw [Operator.applyInts, if_neg (by simpa using undefined), Operator.refusal,
      if_neg undefined]
    simp only [fits, undefined, not_false_eq_true, true_and]

end

/-! ### Ranges -/

/-- Whether numbers count from one to another, upward or downward by one. -/
structure Counts (first last : Int) (items : List Int) : Prop where
  length_eq : items.length = (first - last).natAbs + 1
  starts : items.head? = some first
  ends : items.getLast? = some last
  consecutive : (first ≤ last ∧ items.IsChain fun item next => next = item + 1) ∨
    (last < first ∧ items.IsChain fun item next => next = item - 1)

/-- The items of a range count from its first bound to its last. -/
theorem counts_steps (first last : Int) : Counts first last (steps first last) := by
  have length : (steps first last).length = (first - last).natAbs + 1 := by simp [steps]
  refine ⟨length, by simp [steps, List.head?_range], ?_, ?_⟩
  · rw [List.getLast?_eq_getElem?, length]
    simp only [steps, List.getElem?_map, Nat.add_sub_cancel]
    rw [List.getElem?_range (Nat.lt_succ_self _)]
    simp only [Option.map_some, Option.some.injEq]
    split <;> omega
  · rcases le_or_gt first last with upward | downward
    · refine .inl ⟨upward, List.isChain_iff_getElem.mpr fun place below => ?_⟩
      simp only [steps, List.getElem_map, List.getElem_range, if_pos upward]
      omega
    · refine .inr ⟨downward, List.isChain_iff_getElem.mpr fun place below => ?_⟩
      simp only [steps, List.getElem_map, List.getElem_range, if_neg (not_le.mpr downward)]
      omega

/-! ### Expressions -/

section

variable (environment : Environment) {a b : Int} {left right : Expr} {before middle after : State}
  (leftIs : evaluate environment left before = .ok (.int a) middle)

include leftIs

theorem evaluate_neg_int :
    evaluate environment (.neg left) before =
      if inRange (-a) = true then .ok (.int (-a)) middle
      else .error (.fault .negationOverflow) middle := by
  rw [evaluate, Run.bind_of_ok leftIs, negated]
  split <;> rfl

variable (rightIs : evaluate environment right middle = .ok (.int b) after)

include rightIs

/-- An operator on two numbers is applied to them. -/
theorem evaluate_binary_ints (op : Operator) :
    evaluate environment (.binary op.written left right) before =
      Run.ofExcept (op.applyInts a b) after := by
  have seen : Run.heap after = .ok after.heap after := rfl
  rw [evaluate, Run.bind_of_ok leftIs]
  cases op <;> exact (Run.bind_of_ok rightIs).trans (Run.bind_of_ok seen)

theorem evaluate_range_ints :
    evaluate environment (.range left right) before =
      if 10000 ≤ (a - b).natAbs then .error (.fault (.rangeSize a b)) after
      else Run.newList ((steps a b).map .int) after := by
  rw [evaluate, Run.bind_of_ok leftIs, Run.bind_of_ok rightIs, rangeItems, maxRangeLength]
  split <;> rfl

/-- **Arithmetic on whole numbers is exact or a fault.** An operator gives its result where there is
one and it fits, but for the remainder of the least number by minus one; a negative that fits is
given; and a range is the list that counts from its first bound to its last unless they are 10000 or
more apart. Everything else is a fault. -/
theorem arithmetic_exact (inside : inRange a = true) :
    (∀ op : Operator,
      (∀ result, op.Means a b result → inRange result = true →
        ¬ (op = .rem ∧ a = minInt ∧ b = -1) →
          evaluate environment (.binary op.written left right) before = .ok (.int result) after) ∧
      ((∀ result, op.Means a b result → inRange result = false) ∨
          (op = .rem ∧ a = minInt ∧ b = -1) →
        evaluate environment (.binary op.written left right) before =
          .error (.fault (op.refusal b)) after)) ∧
    (inRange (-a) = true → evaluate environment (.neg left) before = .ok (.int (-a)) middle) ∧
    (inRange (-a) = false →
      evaluate environment (.neg left) before = .error (.fault .negationOverflow) middle) ∧
    (10000 ≤ (a - b).natAbs →
      evaluate environment (.range left right) before =
        .error (.fault (.rangeSize a b)) after) ∧
    ((a - b).natAbs < 10000 → ∃ items place later,
      Counts a b items ∧
        evaluate environment (.range left right) before = .ok (.list place) later ∧
        later.heap.list place = items.map .int) := by
  have negative := evaluate_neg_int environment leftIs
  have range := evaluate_range_ints environment leftIs rightIs
  refine ⟨fun op => ⟨fun result means fits usual => ?_, fun refused => ?_⟩, fun fits => ?_,
    fun beyond => ?_, fun long => ?_, fun short => ?_⟩
  · obtain ⟨defined, rfl⟩ := Operator.means_iff.mp means
    rw [evaluate_binary_ints environment leftIs rightIs, Operator.applyInts_eq inside,
      if_pos ⟨defined, fits, usual⟩]
    rfl
  · rw [evaluate_binary_ints environment leftIs rightIs, Operator.applyInts_eq inside, if_neg]
    · rfl
    · rintro ⟨defined, fits, usual⟩
      rcases refused with none | exception
      · have beyond := none _ (Operator.means_iff.mpr ⟨defined, rfl⟩)
        rw [fits] at beyond
        cases beyond
      · exact usual exception
  · rw [negative, if_pos fits]
  · rw [negative, if_neg (by simp [beyond])]
  · rw [range, if_pos long]
  · rw [range, if_neg (not_le.mpr short)]
    exact ⟨steps a b, _, _, counts_steps a b, rfl, Heap.list_allocList _ _⟩

end

/-! ### Rests of numbers below zero -/

/-- **Division goes toward zero** and leaves a rest with the sign of the dividend. -/
theorem quotient_below_zero :
    inRange (-7) = true ∧
      evaluate .still (.binary .div (.int (-7)) (.int 2)) {} = .ok (.int (-3)) {} ∧
      evaluate .still (.binary .rem (.int (-7)) (.int 2)) {} = .ok (.int (-1)) {} := by
  have inside : inRange (-7) = true := by decide
  have divides : Divides (-7) 2 (-3) (-1) := ⟨by decide, by decide, by decide⟩
  have seven : evaluate .still (.int (-7)) {} = .ok (.int (-7)) {} := rfl
  have two : evaluate .still (.int 2) {} = .ok (.int 2) {} := rfl
  have operators := (arithmetic_exact .still seven two inside).1
  exact ⟨inside, (operators .div).1 _ ⟨_, divides⟩ (by decide) (by decide),
    (operators .rem).1 _ ⟨_, divides⟩ (by decide) (by decide)⟩

/-- The wording of the fault in which a template ends. -/
def faultOf (source : String) : Option String :=
  (parse source.toList).toOption.bind fun nodes =>
    match (execute .still nodes).interrupt? {} with
    | some (.fault cause) => some cause.message
    | _ => none

/-- **The least number leaves no rest by minus one**, but its remainder is refused. -/
theorem least_remainder_refused :
    Operator.rem.Means minInt (-1) 0 ∧ inRange 0 = true ∧
      evaluate .still (.binary .rem (.int minInt) (.int (-1))) {} =
        .error (.fault (.overflow "%")) {} ∧
      faultOf "#set($least = -9223372036854775807 - 1)#set($rest = $least % -1)" =
        some "integer overflow in '%'" := by
  refine ⟨⟨0x8000000000000000, by decide, by decide, by decide⟩, by decide, rfl, ?_⟩
  decide +kernel

end FieldResolver.Template
