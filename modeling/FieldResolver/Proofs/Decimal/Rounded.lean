/-
**Whole numbers, rounded to doubles.**

The mantissa of a double has 53 bits. A longer whole number is counted in units of the last of its
leading 53 bits, and the nearest double is the nearest number of such units, the even one of two.

* `rounded`: the whole number nearest to a whole number among those that are doubles;
* `rounded_eq_self`: whole numbers up to `2 ^ 53` are doubles;
* `rounded_mono`: rounding keeps the order, but it may bring numbers together;
* `exists_rounds`: a whole number rounds to a double of this value.
-/

import FieldResolver.Proofs.Decimal.Arithmetic

namespace FieldResolver.Decimal

open Float.Model.UnpackedFloat

/-- The unit that the last of the leading 53 bits of a number counts. -/
def lastPlace (n : Nat) : Nat := 2 ^ (n.log2 - 52)

/-- The number of units nearest to a number, the even one of two. -/
def unitsOf (n : Nat) : Nat :=
  let unit := lastPlace n
  let count := n / unit
  let rest := n % unit
  if 2 * rest < unit ∨ 2 * rest = unit ∧ count % 2 = 0 then count else count + 1

/-- The double nearest to a natural number. -/
def roundedSize (n : Nat) : Nat := unitsOf n * lastPlace n

/-- The double nearest to a whole number. -/
def rounded (n : Int) : Int := n.sign * roundedSize n.natAbs

/-! ### The units of a number -/

section

variable {n k : Nat}

theorem lastPlace_pos (n : Nat) : 0 < lastPlace n := Nat.two_pow_pos _

/-- Rounding keeps the whole units or takes one more. -/
theorem unitsOf_cases (n : Nat) :
    unitsOf n = n / lastPlace n ∨ unitsOf n = n / lastPlace n + 1 := by
  simp only [unitsOf]
  split
  · exact .inl rfl
  · exact .inr rfl

/-- Rounding to whole units is that of a quotient. -/
theorem unitsOf_eq (n : Nat) :
    unitsOf n = (ExtendedMantissa.ofMantissaAndAccuracy (n / lastPlace n)
      (accuracyOfFraction (n % lastPlace n) (lastPlace n))).roundedMantissa := by
  have some := lastPlace_pos n
  simp only [unitsOf, accuracyOfFraction]
  generalize n / lastPlace n = count
  generalize n % lastPlace n = rest
  generalize lastPlace n = unit at some
  by_cases none : rest = 0
  · subst none
    rw [if_pos (.inl (by omega)), if_pos rfl]
    rfl
  · rw [if_neg none]
    cases half : compare (2 * rest) unit with
    | lt =>
      rw [if_pos (.inl (Nat.compare_eq_lt.mp half))]
      rfl
    | eq =>
      have middle := Nat.compare_eq_eq.mp half
      show _ = count + count % 2
      split <;> omega
    | gt =>
      have above := Nat.compare_eq_gt.mp half
      rw [if_neg (by omega)]
      rfl

theorem nearest_unitsOf (n : Nat) : Nearest (unitsOf n) ((n : ℚ) / lastPlace n) := by
  rw [unitsOf_eq]
  exact (stands_quotient n (lastPlace_pos n)).nearest

/-- The leading bits of a number that has more than 53. -/
theorem units_bounds (long : 52 ≤ n.log2) :
    2 ^ 52 ≤ n / lastPlace n ∧ n / lastPlace n < 2 ^ 53 :=
  ⟨le_div_pow (by omega), div_pow_lt (by omega)⟩

/-- A number that is made of whole units stays as it is. -/
theorem roundedSize_of_dvd (whole : lastPlace n ∣ n) : roundedSize n = n := by
  have none : n % lastPlace n = 0 := Nat.mod_eq_zero_of_dvd whole
  have some := lastPlace_pos n
  have units : unitsOf n = n / lastPlace n := if_pos (.inl (by omega))
  rw [roundedSize, units, Nat.div_mul_cancel whole]

theorem roundedSize_two_pow (k : Nat) : roundedSize (2 ^ k) = 2 ^ k := by
  have unit : lastPlace (2 ^ k) = 2 ^ (k - 52) := by rw [lastPlace, Nat.log2_two_pow]
  exact roundedSize_of_dvd (unit ▸ Nat.pow_dvd_pow 2 (Nat.sub_le k 52))

theorem roundedSize_of_short (short : n.log2 ≤ 52) : roundedSize n = n := by
  have unit : lastPlace n = 1 := by rw [lastPlace, Nat.sub_eq_zero_of_le short, pow_zero]
  exact roundedSize_of_dvd (unit ▸ one_dvd n)

theorem log2_le_of_lt (small : n < 2 ^ (k + 1)) : n.log2 ≤ k := by
  by_cases zero : n = 0
  · rw [zero, Nat.log2_zero]
    exact Nat.zero_le k
  · exact Nat.lt_succ_iff.mp ((Nat.log2_lt zero).mpr small)

/-- **Natural numbers up to `2 ^ 53` are doubles.** -/
theorem roundedSize_eq_self (small : n ≤ 2 ^ 53) : roundedSize n = n := by
  rcases Nat.lt_or_eq_of_le small with less | rfl
  · exact roundedSize_of_short (log2_le_of_lt less)
  · exact roundedSize_two_pow 53

/-! ### The order -/

/-- A number is rounded between the powers of two around it. -/
theorem roundedSize_bounds (positive : 0 < n) :
    2 ^ n.log2 ≤ roundedSize n ∧ roundedSize n ≤ 2 ^ (n.log2 + 1) := by
  rcases Nat.le_or_ge n.log2 52 with short | long
  · rw [roundedSize_of_short short]
    exact ⟨Nat.log2_self_le positive.ne', Nat.lt_log2_self.le⟩
  · obtain ⟨least, below⟩ := units_bounds long
    have units := unitsOf_cases n
    have split : ∀ bits, 2 ^ (bits + (n.log2 - 52)) = 2 ^ bits * lastPlace n := fun bits =>
      pow_add 2 bits _
    have low := split 52
    have high := split 53
    rw [Nat.add_sub_cancel' long] at low
    rw [show 53 + (n.log2 - 52) = n.log2 + 1 by omega] at high
    rw [low, high]
    exact ⟨Nat.mul_le_mul_right _ (by omega), Nat.mul_le_mul_right _ (by omega)⟩

/-- Rounding numbers of one length keeps their order. -/
theorem unitsOf_mono (same : n.log2 = k.log2) (le : n ≤ k) : unitsOf n ≤ unitsOf k := by
  have units : lastPlace n = lastPlace k := by rw [lastPlace, lastPlace, same]
  have some := lastPlace_pos k
  rcases Nat.lt_or_eq_of_le (Nat.div_le_div_right (c := lastPlace k) le) with less | counts
  · have first := unitsOf_cases n
    have second := unitsOf_cases k
    rw [units] at first
    omega
  · have rests : n % lastPlace k ≤ k % lastPlace k := by
      have whole := Nat.div_add_mod n (lastPlace k)
      have whole' := Nat.div_add_mod k (lastPlace k)
      rw [counts] at whole
      omega
    simp only [unitsOf, units, counts]
    split <;> split <;> omega

/-- **Rounding keeps the order of sizes.** -/
theorem roundedSize_mono (le : n ≤ k) : roundedSize n ≤ roundedSize k := by
  rcases Nat.eq_zero_or_pos n with rfl | positive
  · rw [roundedSize_eq_self (Nat.zero_le _)]
    exact Nat.zero_le _
  · have logs : n.log2 ≤ k.log2 := log2_le_of_lt (le.trans_lt Nat.lt_log2_self)
    rcases Nat.lt_or_eq_of_le logs with shorter | same
    · calc roundedSize n ≤ 2 ^ (n.log2 + 1) := (roundedSize_bounds positive).2
        _ ≤ 2 ^ k.log2 := Nat.pow_le_pow_right (by norm_num) shorter
        _ ≤ roundedSize k := (roundedSize_bounds (positive.trans_le le)).1
    · have units : lastPlace n = lastPlace k := by rw [lastPlace, lastPlace, same]
      rw [roundedSize, roundedSize, units]
      exact Nat.mul_le_mul_right _ (unitsOf_mono same le)

end

/-! ### Whole numbers -/

theorem rounded_natCast (n : Nat) : rounded n = roundedSize n := by
  rcases Nat.eq_zero_or_pos n with rfl | positive
  · rfl
  · rw [rounded, Int.sign_natCast_of_ne_zero positive.ne', one_mul, Int.natAbs_natCast]

theorem rounded_neg (n : Int) : rounded (-n) = -rounded n := by
  rw [rounded, rounded, Int.sign_neg, Int.natAbs_neg, neg_mul]

/-- **Whole numbers up to `2 ^ 53` are doubles.** -/
theorem rounded_eq_self {n : Int} (small : n.natAbs ≤ 2 ^ 53) : rounded n = n := by
  rw [rounded, roundedSize_eq_self small, Int.sign_mul_natAbs]

/-- A power of two bounds rounded numbers as it bounds the numbers. -/
theorem natAbs_rounded_le {n : Int} {k : Nat} (small : n.natAbs ≤ 2 ^ k) :
    (rounded n).natAbs ≤ 2 ^ k := by
  have size : (rounded n).natAbs = roundedSize n.natAbs := by
    obtain ⟨size, rfl | rfl⟩ := Int.eq_nat_or_neg n
    · rw [rounded_natCast, Int.natAbs_natCast, Int.natAbs_natCast]
    · rw [rounded_neg, rounded_natCast, Int.natAbs_neg, Int.natAbs_neg, Int.natAbs_natCast,
        Int.natAbs_natCast]
  rw [size, ← roundedSize_two_pow k]
  exact roundedSize_mono small

/-- **Rounding keeps the order.** -/
theorem rounded_mono {a b : Int} (le : a ≤ b) : rounded a ≤ rounded b := by
  obtain ⟨n, rfl | rfl⟩ := Int.eq_nat_or_neg a <;> obtain ⟨k, rfl | rfl⟩ := Int.eq_nat_or_neg b
  all_goals simp only [rounded_neg, rounded_natCast]
  · exact_mod_cast roundedSize_mono (by omega)
  · obtain ⟨rfl, rfl⟩ : n = 0 ∧ k = 0 := by omega
    rfl
  · omega
  · have sizes := roundedSize_mono (show k ≤ n by omega)
    omega

/-! ### What whole numbers round to -/

section

variable {n : Nat}

/-- A short number, padded to a mantissa of full length. -/
theorem canonical_of_short (positive : 0 < n) (short : n.log2 ≤ 52) :
    2 ^ 52 ≤ n * 2 ^ (52 - n.log2) ∧
      Canonical (n * 2 ^ (52 - n.log2)) (-((52 - n.log2 : ℕ) : ℤ)) ∧
      ((n * 2 ^ (52 - n.log2) : ℕ) : ℚ) * 2 ^ (-((52 - n.log2 : ℕ) : ℤ)) = n := by
  obtain ⟨places, full⟩ : ∃ places, n.log2 + places = 52 := ⟨52 - n.log2, by omega⟩
  rw [show 52 - n.log2 = places by omega]
  have least : 2 ^ 52 ≤ n * 2 ^ places := by
    rw [← full, pow_add]
    exact Nat.mul_le_mul_right _ (Nat.log2_self_le positive.ne')
  have below : n * 2 ^ places < 2 ^ 53 := by
    rw [show 53 = (n.log2 + 1) + places by omega, pow_add _ (n.log2 + 1)]
    exact Nat.mul_lt_mul_of_pos_right Nat.lt_log2_self (Nat.two_pow_pos places)
  refine ⟨least, ⟨below, by omega, .inl least⟩, ?_⟩
  push_cast
  rw [mul_assoc, zpow_neg, zpow_natCast, mul_inv_cancel₀ (by positivity), mul_one]

/-- A long number rounds to the nearest number of its units, which may take a bit more. -/
theorem exists_rounds_of_long (long : 52 ≤ n.log2) :
    ∃ (m : Nat) (q : Int), Canonical m q ∧ 0 < m ∧ q ≤ n.log2 - 51 ∧ Rounds m q n ∧
      (m : ℚ) * 2 ^ q = roundedSize n := by
  let places : ℤ := (n.log2 - 52 : ℕ)
  have unit : (lastPlace n : ℚ) = 2 ^ places := by
    rw [zpow_natCast]
    exact_mod_cast rfl
  have some : (0 : ℚ) < lastPlace n := by exact_mod_cast lastPlace_pos n
  have value : (n : ℚ) = n / lastPlace n * 2 ^ places := by
    rw [← unit, div_mul_cancel₀ _ some.ne']
  have size : (roundedSize n : ℚ) = unitsOf n * 2 ^ places := by
    rw [roundedSize, Nat.cast_mul, unit]
  obtain ⟨least, below⟩ := units_bounds long
  have units := unitsOf_cases n
  have nearest := nearest_unitsOf n
  rw [size, value]
  by_cases longer : unitsOf n = 2 ^ 53
  · rw [longer] at nearest ⊢
    refine ⟨2 ^ 52, places + 1, ⟨by norm_num, by omega, .inl le_rfl⟩, by norm_num, by omega,
      nearest.rounds_long ?_ (by omega), ?_⟩
    · rw [div_lt_iff₀ some]
      exact_mod_cast (Nat.div_lt_iff_lt_mul (lastPlace_pos n)).mp below
    · rw [zpow_add₀ (by norm_num)]
      push_cast
      ring
  · refine ⟨unitsOf n, places, ⟨by omega, by omega, .inl (by omega)⟩, by omega, by omega,
      nearest.rounds fun power _ => ?_, rfl⟩
    have kept : unitsOf n = n / lastPlace n := by omega
    rw [kept]
    exact Nat.cast_div_le

/-- **A whole number rounds to a double of the rounded value.** -/
theorem exists_rounds (positive : 0 < n) (small : n.log2 ≤ 1022) :
    ∃ (m : Nat) (q : Int), Canonical m q ∧ 0 < m ∧ q ≤ 971 ∧ Rounds m q n ∧
      (m : ℚ) * 2 ^ q = roundedSize n := by
  rcases Nat.le_or_ge n.log2 52 with short | long
  · obtain ⟨least, canonical, value⟩ := canonical_of_short positive short
    refine ⟨_, _, canonical, by omega, by omega, ?_, ?_⟩
    · have self := rounds_self (n * 2 ^ (52 - n.log2)) (-((52 - n.log2 : ℕ) : ℤ))
      rwa [value] at self
    · rw [value, roundedSize_of_short short]
  · obtain ⟨m, q, canonical, some, most, rounds, value⟩ := exists_rounds_of_long long
    exact ⟨m, q, canonical, some, by omega, rounds, value⟩

/-- A natural number that is a double is rounded to itself. -/
theorem roundedSize_of_canonical (positive : 0 < n) (small : n.log2 ≤ 1022) {m : Nat} {q : Int}
    (canonical : Canonical m q) (value : (m : ℚ) * 2 ^ q = n) : roundedSize n = n := by
  obtain ⟨m', q', canonical', -, -, rounds, size⟩ := exists_rounds positive small
  obtain ⟨rfl, rfl⟩ := Rounds.unique canonical canonical' (value ▸ rounds_self m q) rounds
  exact_mod_cast size.symm.trans value

end

end FieldResolver.Decimal
