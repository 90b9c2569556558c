/-
**What rounds to a double.**

The reals that round to a double are an interval around it, and the intervals of different doubles
do not meet. The shortest digits of a double are those of a number in its interval, so they
determine the double.

* `ofFloat_injective`: the sign, the mantissa and the exponent determine an ordinary double;
* `Rounds`: whether a number rounds to a mantissa and an exponent, with `contains_iff`;
* `Rounds.unique`: a number rounds to one double only;
* `shortest_rounds`: the shortest digits of a double are those of a number that rounds to it.
-/

import FieldResolver.Decimal.Shortest
import Mathlib.Algebra.Order.Field.Power
import Mathlib.Algebra.Order.Field.Rat
import Mathlib.Tactic.FieldSimp
import Mathlib.Tactic.Linarith
import Mathlib.Tactic.NormNum
import Mathlib.Tactic.Positivity
import Mathlib.Tactic.Ring

namespace FieldResolver.Decimal

/-! ### The parts of a double -/

/-- The mantissas and exponents of ordinary doubles. -/
structure Canonical (mantissa : Nat) (exponent : Int) : Prop where
  below : mantissa < 2 ^ 53
  least : -1074 ≤ exponent
  normal : 2 ^ 52 ≤ mantissa ∨ exponent = -1074

theorem toBits_injective {x y : Float} (same : x.toBits = y.toBits) : x = y := by
  obtain ⟨⟨x, _⟩⟩ := x
  obtain ⟨⟨y, _⟩⟩ := y
  cases same
  rfl

/-- The parts of an ordinary double. -/
theorem canonical_of_ofFloat {x : Float} {negative : Bool} {mantissa : Nat} {exponent : Int}
    (parts : Binary.ofFloat x = .finite negative mantissa exponent) :
    Canonical mantissa exponent := by
  simp only [Binary.ofFloat] at parts
  split at parts
  · split at parts <;> cases parts
  · split at parts
    · cases parts
      exact ⟨by omega, le_refl _, .inr rfl⟩
    · cases parts
      exact ⟨by omega, by omega, .inl (by omega)⟩

/-- What the parts of an ordinary double say about its bits. -/
theorem bits_of_ofFloat {x : Float} {negative : Bool} {mantissa : Nat} {exponent : Int}
    (parts : Binary.ofFloat x = .finite negative mantissa exponent) :
    (x.toBits.toNat : Int) = (if negative then 2 ^ 63 else 0) +
      if mantissa < 2 ^ 52 then (mantissa : Int)
      else (exponent + 1075) * 2 ^ 52 + (mantissa - 2 ^ 52) := by
  have size : x.toBits.toNat < 2 ^ 64 := x.toBits.toNat_lt
  simp only [Binary.ofFloat] at parts
  generalize x.toBits.toNat = bits at parts size ⊢
  have sign : (bits / 0x8000000000000000 == 1) = decide (2 ^ 63 ≤ bits) := by
    rw [Bool.eq_iff_iff, beq_iff_eq, decide_eq_true_iff]
    omega
  rw [sign] at parts
  split at parts
  · split at parts <;> cases parts
  · split at parts <;> cases parts <;> simp only [decide_eq_true_eq] <;> split <;> split <;> omega

/-- The sign, the mantissa and the exponent determine an ordinary double. -/
theorem ofFloat_injective {x y : Float} (finite : isFinite x = true)
    (same : Binary.ofFloat x = Binary.ofFloat y) : x = y := by
  rw [isFinite] at finite
  split at finite
  · rename_i negative mantissa exponent parts
    have left := bits_of_ofFloat parts
    have right := bits_of_ofFloat (same ▸ parts)
    exact toBits_injective (UInt64.toNat_inj.mp (by omega))
  · cases finite

/-! ### Intervals -/

/-- How far below a mantissa its interval reaches, in quarters of the last place: to the middle of
the way to the lower neighbour, which is nearer at a power of two. -/
def reach (mantissa : Nat) (exponent : Int) : Nat :=
  if mantissa = 2 ^ 52 ∧ -1074 < exponent then 1 else 2

/-- Whether a number rounds to a mantissa and an exponent. A number in the middle between two
doubles rounds to the even mantissa. -/
structure Rounds (mantissa : Nat) (exponent : Int) (value : ℚ) : Prop where
  low : ((4 * mantissa - reach mantissa exponent : ℤ) : ℚ) * 2 ^ (exponent - 2) ≤ value
  high : value ≤ ((4 * mantissa + 2 : ℤ) : ℚ) * 2 ^ (exponent - 2)
  odd : mantissa % 2 = 1 →
    ((4 * mantissa - reach mantissa exponent : ℤ) : ℚ) * 2 ^ (exponent - 2) ≠ value ∧
      value ≠ ((4 * mantissa + 2 : ℤ) : ℚ) * 2 ^ (exponent - 2)

section

variable {m m' : Nat} {q q' : Int} {value : ℚ}

/-- Where a number rounds to two mantissas, the interval of the one with the greater exponent begins
where the other one ends or before. In units of a quarter of the smaller last place both ends are
whole numbers. They meet only if both mantissas are even. -/
theorem Rounds.ends {k : Nat} (rounds : Rounds m q value) (rounds' : Rounds m' (q + k) value) :
    (4 * m' - reach m' (q + k) : ℤ) * 2 ^ k ≤ 4 * m + 2 ∧
      (m % 2 = 1 ∨ m' % 2 = 1 → (4 * m' - reach m' (q + k) : ℤ) * 2 ^ k ≠ 4 * m + 2) := by
  have unit : (0 : ℚ) < 2 ^ (q - 2) := zpow_pos (by norm_num) _
  have scale : (2 : ℚ) ^ (q + k - 2) = 2 ^ k * 2 ^ (q - 2) := by
    rw [show q + k - 2 = k + (q - 2) by ring, zpow_add₀ (by norm_num), zpow_natCast]
  constructor
  · have chain := rounds'.low.trans rounds.high
    rw [scale, ← mul_assoc] at chain
    have units := le_of_mul_le_mul_right chain unit
    exact_mod_cast units
  · intro odd same
    have meet : ((4 * m' - reach m' (q + k) : ℤ) : ℚ) * 2 ^ (q + k - 2) =
        ((4 * m + 2 : ℤ) : ℚ) * 2 ^ (q - 2) := by
      rw [scale, ← mul_assoc, ← same]
      push_cast
      ring
    rcases odd with odd | odd
    · exact (rounds.odd odd).2 (le_antisymm rounds.high (meet ▸ rounds'.low))
    · exact (rounds'.odd odd).1 (le_antisymm rounds'.low (meet ▸ rounds.high))

/-- The interval of a double ends where that of a greater one begins or before. -/
theorem Rounds.not_of_lt (canonical : Canonical m q) (canonical' : Canonical m' q')
    (less : q < q' ∨ q = q' ∧ m < m') (rounds : Rounds m q value) : ¬ Rounds m' q' value := by
  intro rounds'
  have below := canonical.below
  have least := canonical.least
  have normal' := canonical'.normal
  obtain ⟨k, rfl⟩ : ∃ k : Nat, q' = q + k := ⟨(q' - q).toNat, by omega⟩
  obtain ⟨ends, apart⟩ := rounds.ends rounds'
  have reach_le : reach m' (q + k) = 1 ∧ m' = 2 ^ 52 ∨
      reach m' (q + k) = 2 ∧ (m' = 2 ^ 52 → ¬ -1074 < q + k) := by
    rw [reach]
    split
    · exact .inl ⟨rfl, by omega⟩
    · exact .inr ⟨rfl, by omega⟩
  cases k with
  | zero =>
    have greater : m < m' := by omega
    rw [pow_zero, mul_one] at ends apart
    omega
  | succ k =>
    have large : 2 ^ 52 ≤ m' := by omega
    have double : (4 * m' - reach m' (q + (k + 1 : ℕ)) : ℤ) * 2 ≤
        (4 * m' - reach m' (q + (k + 1 : ℕ)) : ℤ) * 2 ^ (k + 1) := by
      refine mul_le_mul_of_nonneg_left ?_ (by omega)
      rw [pow_succ']
      have positive : (1 : ℤ) ≤ 2 ^ k := one_le_pow₀ (by norm_num)
      omega
    -- Only the largest mantissa reaches up to the next power of two, and it is odd.
    have largest : m = 2 ^ 53 - 1 := by omega
    exact apart (.inl (by omega)) (by omega)

/-- **A number rounds to one double only.** -/
theorem Rounds.unique (canonical : Canonical m q) (canonical' : Canonical m' q')
    (rounds : Rounds m q value) (rounds' : Rounds m' q' value) : m = m' ∧ q = q' := by
  by_contra different
  have order : (q < q' ∨ q = q' ∧ m < m') ∨ (q' < q ∨ q' = q ∧ m' < m) := by omega
  rcases order with less | less
  · exact rounds.not_of_lt canonical canonical' less rounds'
  · exact rounds'.not_of_lt canonical' canonical less rounds

end

/-! ### The number of digits -/

theorem length_natDigits_pos (n : Nat) : 0 < (natDigits n).length := Nat.length_toDigits_pos

/-- A number has no fewer digits than its size asks for. -/
theorem lt_pow_length_natDigits (n : Nat) : n < 10 ^ (natDigits n).length :=
  (Nat.length_toDigits_le_iff (by norm_num) (length_natDigits_pos n)).mp le_rfl

/-- A number has no more digits than its size asks for. -/
theorem pow_length_natDigits_le {n : Nat} (positive : 0 < n) :
    10 ^ ((natDigits n).length - 1) ≤ n := by
  by_cases short : (natDigits n).length - 1 = 0
  · rw [short, pow_zero]
    exact positive
  · by_contra smaller
    have fewer := (Nat.length_toDigits_le_iff (by norm_num) (Nat.pos_of_ne_zero short)).mpr
      (Nat.lt_of_not_le smaller)
    have some := length_natDigits_pos n
    rw [natDigits] at *
    omega

/-! ### The interval as fractions -/

/-- The last place in quarters of it. -/
theorem two_zpow_eq (q : Int) : (2 : ℚ) ^ q = 4 * 2 ^ (q - 2) := by
  rw [zpow_sub₀ (by norm_num)]
  norm_num
  ring

/-- A double rounds to itself. -/
theorem rounds_self (m : Nat) (q : Int) : Rounds m q (m * 2 ^ q) := by
  have unit : (0 : ℚ) < 2 ^ (q - 2) := zpow_pos (by norm_num) _
  have quarters : (m : ℚ) * 2 ^ q = (4 * m) * 2 ^ (q - 2) := by
    rw [two_zpow_eq]
    ring
  have some : (0 : ℚ) < reach m q := by
    rw [reach]
    split <;> norm_num
  rw [quarters]
  refine ⟨?_, ?_, fun _ => ⟨?_, ?_⟩⟩
  · rw [mul_le_mul_iff_left₀ unit]
    push_cast
    linarith
  · rw [mul_le_mul_iff_left₀ unit]
    push_cast
    linarith
  · rw [ne_eq, mul_left_inj' unit.ne']
    push_cast
    intro same
    linarith
  · rw [ne_eq, mul_left_inj' unit.ne']
    push_cast
    intro same
    linarith

/-- A power of a base as a fraction of natural numbers. -/
theorem power_fraction (base : Nat) (positive : 0 < base) (exponent : Int) :
    ((if 0 ≤ exponent then Nat.pow base exponent.toNat else 1 : Nat) : ℚ) /
      (if 0 ≤ exponent then 1 else Nat.pow base (-exponent).toNat : Nat) =
        (base : ℚ) ^ exponent := by
  have nonzero : (base : ℚ) ≠ 0 := by positivity
  split
  · rename_i nonnegative
    obtain ⟨n, rfl⟩ := Int.eq_ofNat_of_zero_le nonnegative
    simp
  · rename_i negative
    obtain ⟨n, rfl⟩ : ∃ n : Nat, exponent = -n := ⟨(-exponent).toNat, by omega⟩
    simp [zpow_neg]

namespace Interval

section

variable {m : Nat} {q : Int}

/-- The scale of an interval as a fraction. -/
theorem scale_ofBinary (m : Nat) (q : Int) : ∃ scale : Nat,
    0 < (ofBinary m q).denominator ∧ (scale : ℚ) / (ofBinary m q).denominator = 2 ^ (q - 2) ∧
      (ofBinary m q).low = (4 * m - reach m q) * scale ∧
      (ofBinary m q).value = 4 * m * scale ∧ (ofBinary m q).high = (4 * m + 2) * scale := by
  refine ⟨(Binary.fraction 1 (q - 2)).1, ?_, ?_, rfl, rfl, rfl⟩
  · show 0 < (Binary.fraction 1 (q - 2)).2
    rw [Binary.fraction]
    split
    · exact Nat.one_pos
    · exact Nat.pow_pos (by norm_num)
  · show _ / ((Binary.fraction 1 (q - 2)).2 : ℚ) = _
    have power := power_fraction 2 (by norm_num) (q - 2)
    rw [Binary.fraction]
    split
    · rename_i nonnegative
      rw [if_pos nonnegative, if_pos nonnegative] at power
      rw [one_mul]
      exact power
    · rename_i negative
      rw [if_neg negative, if_neg negative] at power
      exact power

/-- The ends of an interval as fractions. -/
theorem ends_ofBinary (positive : 0 < m) (q : Int) :
    ((4 * m - reach m q : ℤ) : ℚ) * 2 ^ (q - 2) =
        ((ofBinary m q).low : ℚ) / (ofBinary m q).denominator ∧
      ((4 * m + 2 : ℤ) : ℚ) * 2 ^ (q - 2) =
        ((ofBinary m q).high : ℚ) / (ofBinary m q).denominator := by
  obtain ⟨scale, -, unit, low, -, high⟩ := scale_ofBinary m q
  have reach_le : reach m q ≤ 2 := by rw [reach]; split <;> omega
  constructor
  · rw [low, ← unit]
    push_cast [Nat.cast_sub (show reach m q ≤ 4 * m by omega)]
    ring
  · rw [high, ← unit]
    push_cast
    ring

/-- Fractions are compared by multiplying crosswise. -/
theorem div_le_div_iff_mul_le_mul {a b c d : Nat} (left : 0 < b) (right : 0 < d) :
    (a : ℚ) / b ≤ c / d ↔ a * d ≤ c * b := by
  rw [div_le_div_iff₀ (Nat.cast_pos.mpr left) (Nat.cast_pos.mpr right)]
  exact_mod_cast Iff.rfl

theorem div_eq_div_iff_mul_eq_mul {a b c d : Nat} (left : 0 < b) (right : 0 < d) :
    (a : ℚ) / b = c / d ↔ a * d = c * b := by
  rw [div_eq_div_iff (Nat.cast_pos.mpr left).ne' (Nat.cast_pos.mpr right).ne']
  exact_mod_cast Iff.rfl

/-- An interval contains the numbers that round to its mantissa and exponent. -/
theorem contains_iff (positive : 0 < m) {num den : Nat} (nonzero : 0 < den) :
    (ofBinary m q).contains num den = true ↔ Rounds m q ((num : ℚ) / den) := by
  obtain ⟨-, denominator, -⟩ := scale_ofBinary m q
  obtain ⟨lowEnd, highEnd⟩ := ends_ofBinary positive q
  have lower := div_le_div_iff_mul_le_mul (a := (ofBinary m q).low) (c := num) denominator nonzero
  have upper := div_le_div_iff_mul_le_mul (a := num) (c := (ofBinary m q).high) nonzero denominator
  have lowerEnd := div_eq_div_iff_mul_eq_mul (a := (ofBinary m q).low) (c := num) denominator
    nonzero
  have upperEnd := div_eq_div_iff_mul_eq_mul (a := num) (c := (ofBinary m q).high) nonzero
    denominator
  have closed : (ofBinary m q).closed = (m % 2 == 0) := rfl
  rw [contains, closed]
  constructor
  · intro inside
    refine ⟨?_, ?_, fun odd => ?_⟩
    · rw [lowEnd, lower]
      split at inside <;> simp only [decide_eq_true_eq] at inside <;> omega
    · rw [highEnd, upper]
      split at inside <;> simp only [decide_eq_true_eq] at inside <;> omega
    · have notEven : ¬ (m % 2 == 0) = true := by rw [beq_iff_eq]; omega
      rw [if_neg notEven, decide_eq_true_eq] at inside
      rw [lowEnd, highEnd, ne_eq, ne_eq, lowerEnd, upperEnd]
      omega
  · rintro ⟨above, below, odd⟩
    rw [lowEnd, lower] at above
    rw [highEnd, upper] at below
    rw [lowEnd, highEnd, ne_eq, ne_eq, lowerEnd, upperEnd] at odd
    split
    · exact decide_eq_true ⟨above, below⟩
    · rename_i notEven
      rw [beq_iff_eq] at notEven
      have strict := odd (by omega)
      exact decide_eq_true (by omega)

/-! ### The search for digits -/

/-- The value in the interval as a fraction. -/
theorem value_ofBinary (m : Nat) (q : Int) :
    ((ofBinary m q).value : ℚ) / (ofBinary m q).denominator = m * 2 ^ q := by
  obtain ⟨scale, _, unit, _, value, _⟩ := scale_ofBinary m q
  rw [value, two_zpow_eq, ← unit]
  push_cast
  ring

/-- The distance of the points of a grid as a fraction. -/
theorem exists_gridFraction (grid : Int) : ∃ num den : Nat,
    (if 0 ≤ grid then (Nat.pow 10 grid.toNat, 1) else (1, Nat.pow 10 (-grid).toNat)) =
      (num, den) ∧ 0 < num ∧ 0 < den ∧ (num : ℚ) / den = 10 ^ grid := by
  have power := power_fraction 10 (by norm_num) grid
  split
  · rename_i nonnegative
    rw [if_pos nonnegative, if_pos nonnegative] at power
    exact ⟨_, _, rfl, Nat.pow_pos (by norm_num), Nat.one_pos, power⟩
  · rename_i negative
    rw [if_neg negative, if_neg negative] at power
    exact ⟨_, _, rfl, Nat.one_pos, Nat.pow_pos (by norm_num), power⟩

/-- The quotient of a value and the distance of a grid's points counts the points below it. -/
theorem floor_ofBinary (m : Nat) (q : Int) {num den : Nat} (numPositive : 0 < num)
    (denPositive : 0 < den) :
    let below := (ofBinary m q).value * den / ((ofBinary m q).denominator * num)
    (below : ℚ) * (num / den) ≤ m * 2 ^ q ∧ (m * 2 ^ q : ℚ) < (below + 1) * (num / den) := by
  obtain ⟨_, denominator, _⟩ := scale_ofBinary m q
  have D : (0 : ℚ) < (ofBinary m q).denominator := by exact_mod_cast denominator
  have d : (0 : ℚ) < den := by exact_mod_cast denPositive
  have product : 0 < (ofBinary m q).denominator * num := Nat.mul_pos denominator numPositive
  have atMost := Nat.div_mul_le_self ((ofBinary m q).value * den)
    ((ofBinary m q).denominator * num)
  have less := Nat.lt_div_mul_add product (a := (ofBinary m q).value * den)
  intro below
  change below * _ ≤ _ at atMost
  change _ < below * _ + _ at less
  rw [← value_ofBinary, ← mul_div_assoc, ← mul_div_assoc]
  constructor
  · rw [div_le_div_iff₀ d D]
    calc (below : ℚ) * num * (ofBinary m q).denominator
        = ((below * ((ofBinary m q).denominator * num) : ℕ) : ℚ) := by push_cast; ring
      _ ≤ (((ofBinary m q).value * den : ℕ) : ℚ) := by exact_mod_cast atMost
      _ = _ := by push_cast; ring
  · rw [div_lt_div_iff₀ D d]
    calc ((ofBinary m q).value : ℚ) * den = (((ofBinary m q).value * den : ℕ) : ℚ) := by
          push_cast; ring
      _ < ((below * ((ofBinary m q).denominator * num) +
            (ofBinary m q).denominator * num : ℕ) : ℚ) := by exact_mod_cast less
      _ = _ := by push_cast; ring

/-- A search of a grid looks at the neighbours of the value: it finds one that rounds to the value's
mantissa and exponent, or neither does. -/
theorem onGrid?_cases (positive : 0 < m) (grid : Int) :
    (∃ n : Nat, (ofBinary m q).onGrid? grid = some n ∧ Rounds m q (n * 10 ^ grid)) ∨
      (ofBinary m q).onGrid? grid = none ∧ ∃ below : Nat, below * 10 ^ grid ≤ (m * 2 ^ q : ℚ) ∧
        (m * 2 ^ q : ℚ) < (below + 1) * 10 ^ grid ∧
        ¬ Rounds m q (below * 10 ^ grid) ∧ ¬ Rounds m q ((below + 1) * 10 ^ grid) := by
  obtain ⟨num, den, pair, numPositive, denPositive, power⟩ := exists_gridFraction grid
  have inside : ∀ n : Nat, (ofBinary m q).contains (n * num) den = true ↔
      Rounds m q (n * 10 ^ grid) := by
    intro n
    rw [contains_iff positive denPositive, ← power]
    push_cast
    rw [mul_div_assoc]
  have floor := floor_ofBinary m q numPositive denPositive
  simp only [onGrid?, pair]
  generalize (ofBinary m q).value * den / ((ofBinary m q).denominator * num) = below at floor ⊢
  obtain ⟨lower, upper⟩ := floor
  rw [power] at lower upper
  have next := inside (below + 1)
  rw [Nat.cast_succ] at next
  cases belowFits : (ofBinary m q).contains (below * num) den <;>
    cases aboveFits : (ofBinary m q).contains ((below + 1) * num) den
  · refine .inr ⟨rfl, below, lower, upper, fun rounds => ?_, fun rounds => ?_⟩
    · rw [(inside below).mpr rounds] at belowFits
      cases belowFits
    · rw [next.mpr rounds] at aboveFits
      cases aboveFits
  · exact .inl ⟨below + 1, rfl, (inside _).mp aboveFits⟩
  · exact .inl ⟨below, rfl, (inside _).mp belowFits⟩
  · have atBelow := (inside below).mp belowFits
    have atAbove := (inside (below + 1)).mp aboveFits
    left
    simp only
    split
    · exact ⟨below, rfl, atBelow⟩
    · split
      · exact ⟨below + 1, rfl, atAbove⟩
      · refine ⟨_, rfl, ?_⟩
        split
        · exact atBelow
        · exact atAbove

/-- On a grid that is narrower than the interval a number is found. -/
theorem onGrid?_of_narrow (positive : 0 < m) {grid : Int}
    (narrow : (10 : ℚ) ^ grid < (2 + reach m q) * 2 ^ (q - 2)) :
    ∃ n : Nat, (ofBinary m q).onGrid? grid = some n ∧ Rounds m q (n * 10 ^ grid) := by
  refine (onGrid?_cases positive grid).resolve_right ?_
  rintro ⟨_, below, lower, upper, notBelow, notAbove⟩
  have unit : (0 : ℚ) < 2 ^ (q - 2) := zpow_pos (by norm_num) _
  have reachPositive : (0 : ℚ) < reach m q := by
    rw [reach]
    split <;> norm_num
  rw [two_zpow_eq] at lower upper
  have belowLow : (below : ℚ) * 10 ^ grid ≤ (4 * m - reach m q) * 2 ^ (q - 2) := by
    by_contra inside
    push Not at inside
    refine notBelow ⟨?_, ?_, fun _ => ⟨?_, ?_⟩⟩ <;> push_cast
    · exact inside.le
    · nlinarith
    · exact inside.ne
    · have : (below : ℚ) * 10 ^ grid < (4 * m + 2) * 2 ^ (q - 2) := by nlinarith
      exact this.ne
  have aboveHigh : (4 * m + 2) * 2 ^ (q - 2) ≤ ((below : ℚ) + 1) * 10 ^ grid := by
    by_contra inside
    push Not at inside
    refine notAbove ⟨?_, ?_, fun _ => ⟨?_, ?_⟩⟩ <;> push_cast
    · nlinarith
    · exact inside.le
    · have : (4 * m - reach m q) * 2 ^ (q - 2) < ((below : ℚ) + 1) * 10 ^ grid := by nlinarith
      exact this.ne
    · exact inside.ne
  nlinarith

/-- The magnitude is no greater than the value's. -/
theorem magnitude_le (positive : 0 < m) :
    (10 : ℚ) ^ ((ofBinary m q).magnitude - 1) ≤ m * 2 ^ q := by
  obtain ⟨scale, denominator, unit, _, value, _⟩ := scale_ofBinary m q
  have D : (0 : ℚ) < (ofBinary m q).denominator := by exact_mod_cast denominator
  have scalePositive : 0 < scale := by
    by_contra zero
    rw [Nat.eq_zero_of_not_pos zero, Nat.cast_zero, zero_div] at unit
    exact (zpow_pos (by norm_num : (0 : ℚ) < 2) (q - 2)).ne unit
  have valuePositive : 0 < (ofBinary m q).value := by
    rw [value]
    positivity
  rw [← value_ofBinary, le_div_iff₀ D, magnitude]
  generalize (ofBinary m q).value = num at valuePositive
  generalize (ofBinary m q).denominator = den at denominator
  simp only
  split
  · rename_i whole
    obtain ⟨places, length⟩ := Nat.exists_eq_add_of_lt (length_natDigits_pos (num / den))
    have digits := pow_length_natDigits_le (Nat.div_pos whole denominator)
    rw [length] at digits ⊢
    have product : 10 ^ places * den ≤ num := by
      refine (Nat.le_div_iff_mul_le denominator).mp (le_trans (le_of_eq ?_) digits)
      congr 1
      omega
    rw [show ((0 + places + 1 : ℕ) : ℤ) - 1 = places by omega, zpow_natCast]
    exact_mod_cast product
  · obtain ⟨places, length⟩ := Nat.exists_eq_add_of_lt (length_natDigits_pos (den / num))
    rw [length]
    split
    · rename_i exact
      rw [show (2 : ℤ) - ((0 + places + 1 : ℕ) : ℤ) - 1 = -places by omega, zpow_neg, zpow_natCast,
        inv_mul_le_iff₀ (by positivity), mul_comm]
      rw [show 0 + places + 1 - 1 = places by omega] at exact
      exact_mod_cast exact
    · have digits := lt_pow_length_natDigits (den / num)
      rw [length, Nat.div_lt_iff_lt_mul valuePositive] at digits
      rw [show (1 : ℤ) - ((0 + places + 1 : ℕ) : ℤ) - 1 = -((0 + places + 1 : ℕ) : ℤ) by omega,
        zpow_neg, zpow_natCast, inv_mul_le_iff₀ (by positivity)]
      exact_mod_cast digits.le

/-- A search that reaches a grid where a number is found finds one. -/
theorem search_of_found {interval : Interval} {magnitude : Int} (tries count last : Nat)
    (reached : count ≤ last) (within : last < count + tries)
    (found : (interval.onGrid? (magnitude - last)).isSome) :
    ∃ n grid, interval.search magnitude tries count = some (n, grid) ∧
      interval.onGrid? grid = some n := by
  induction tries generalizing count with
  | zero => omega
  | succ tries ih =>
    rw [search]
    cases here : interval.onGrid? (magnitude - count) with
    | some n => exact ⟨n, _, rfl, here⟩
    | none =>
      have different : count ≠ last := by
        rintro rfl
        rw [here] at found
        cases found
      exact ih (count + 1) (by omega) (by omega)

end

end Interval

/-- **The shortest digits of a double are those of a number that rounds to it.** -/
theorem shortest_rounds {m : Nat} {q : Int} (canonical : Canonical m q) (positive : 0 < m) :
    ∃ (n : Nat) (grid : Int), shortest m q = Digits.ofNat n grid ∧ Rounds m q (n * 10 ^ grid) := by
  have unit : (0 : ℚ) < 2 ^ (q - 2) := zpow_pos (by norm_num) _
  have narrow : (10 : ℚ) ^ ((Interval.ofBinary m q).magnitude - 17) <
      (2 + reach m q) * 2 ^ (q - 2) := by
    have bound := Interval.magnitude_le (q := q) positive
    have below : (m : ℚ) < 2 ^ 53 := by exact_mod_cast canonical.below
    have wide : (4 * m : ℚ) < (2 + reach m q) * 10 ^ 16 := by
      rw [reach]
      split
      · rename_i power
        rw [power.1]
        norm_num
      · norm_num
        linarith
    have spacing : (10 : ℚ) ^ ((Interval.ofBinary m q).magnitude - 1) =
        10 ^ 16 * 10 ^ ((Interval.ofBinary m q).magnitude - 17) := by
      rw [← zpow_natCast, ← zpow_add₀ (by norm_num)]
      congr 1
      norm_num
      ring
    have quarter : (m : ℚ) * 2 ^ q = 4 * m * 2 ^ (q - 2) := by
      rw [two_zpow_eq q]
      ring
    rw [spacing, quarter] at bound
    have product := mul_lt_mul_of_pos_right wide unit
    nlinarith
  obtain ⟨last, found, _⟩ := Interval.onGrid?_of_narrow positive narrow
  obtain ⟨n, grid, searched, here⟩ := Interval.search_of_found 17 1 17 (by omega) (by omega)
    (Option.isSome_iff_exists.mpr ⟨last, found⟩)
  refine ⟨n, grid, ?_, ?_⟩
  · rw [shortest]
    simp only [searched]
  · rcases Interval.onGrid?_cases positive grid with ⟨n', here', rounds⟩ | none
    · cases here.symm.trans here'
      exact rounds
    · rw [none.1] at here
      cases here

end FieldResolver.Decimal
