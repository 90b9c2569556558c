/-
**Doubles that are whole numbers.**

Such doubles have the order of the numbers that they mean. Their sums and differences are those of
the numbers, rounded once, and so is the double that the text of a whole number is read as.

* `Means`: the whole number that an unpacked double means, and `Denotes` that of a double;
* `Means.compare`: the order of doubles is that of the numbers;
* `means_normalize`: whole numbers of powers of two are rounded as the numbers that they are;
* `Denotes.add`, `Denotes.sub`: sums and differences are rounded once;
* `Denotes.whole?`: the number is read out of the bits;
* `exists_float?_of_int?`: the text of a whole number is read as the double nearest to it.
-/

import FieldResolver.Proofs.Decimal.ReadBack

namespace FieldResolver.Decimal

open Float.Model (UnpackedFloat Format)
open Float.Model.UnpackedFloat

/-! ### Meanings -/

/-- The whole number that an unpacked double means. -/
inductive Means : UnpackedFloat → Int → Prop
  | zero (sign : Sign) : Means (.zero sign) 0
  | finite {m : Nat} {q : Int} {size : Nat} (canonical : Canonical m q) (finite : q ≤ 971)
      (sign : Sign) (positive : 0 < m) (value : (m : ℚ) * 2 ^ q = size) :
      Means (.finite sign m q positive) (sign.apply size)

section

variable {u u' : UnpackedFloat} {n n' : Int} {m m' : Nat} {q q' : Int} {size size' : Nat}

theorem size_pos (positive : 0 < m) (value : (m : ℚ) * 2 ^ q = size) : 0 < size := by
  have above : (0 : ℚ) < m * 2 ^ q := mul_pos (by exact_mod_cast positive) (zpow_pos two_pos q)
  rw [value] at above
  exact_mod_cast above

/-- What an unpacked double means survives packing. -/
theorem Means.unpack_pack (means : Means u n) : (Float.Model.pack u).unpack = u := by
  cases means with
  | zero sign => cases sign <;> rfl
  | finite canonical finite sign positive =>
    exact Decimal.unpack_pack canonical finite positive sign

/-! ### The order -/

/-- A greater exponent outweighs every mantissa. -/
theorem Canonical.lt_of_lex (canonical : Canonical m q) (canonical' : Canonical m' q')
    (less : q < q' ∨ q = q' ∧ m < m') : (m : ℚ) * 2 ^ q < m' * 2 ^ q' := by
  have unit : (0 : ℚ) < 2 ^ q := zpow_pos two_pos q
  rcases less with lower | ⟨rfl, smaller⟩
  · have least := canonical.least
    have full : 2 ^ 52 ≤ m' := canonical'.normal.resolve_right (by omega)
    have bits : (m : ℚ) < 2 ^ 53 := by exact_mod_cast canonical.below
    have bits' : (2 : ℚ) ^ 52 ≤ m' := by exact_mod_cast full
    calc (m : ℚ) * 2 ^ q < 2 ^ 53 * 2 ^ q := mul_lt_mul_of_pos_right bits unit
      _ = 2 ^ 52 * 2 ^ (q + 1) := by rw [zpow_add₀ two_ne_zero]; ring
      _ ≤ 2 ^ 52 * 2 ^ q' :=
        mul_le_mul_of_nonneg_left (zpow_le_zpow_right₀ one_le_two (by omega)) (by positivity)
      _ ≤ m' * 2 ^ q' := mul_le_mul_of_nonneg_right bits' (by positivity)
  · exact mul_lt_mul_of_pos_right (by exact_mod_cast smaller) unit

/-- The exponents and mantissas of two doubles order them as their values do. -/
theorem compare_parts (canonical : Canonical m q) (canonical' : Canonical m' q')
    (value : (m : ℚ) * 2 ^ q = size) (value' : (m' : ℚ) * 2 ^ q' = size') :
    (compare q q').then (compare m m') = compare (size : ℤ) size' := by
  by_cases less : q < q' ∨ q = q' ∧ m < m'
  · have sizes := canonical.lt_of_lex canonical' less
    rw [value, value', Nat.cast_lt] at sizes
    rw [Int.compare_eq_lt.mpr (Int.ofNat_lt.mpr sizes)]
    rcases less with lower | ⟨rfl, smaller⟩
    · rw [Int.compare_eq_lt.mpr lower]
      rfl
    · rw [Int.compare_eq_eq.mpr rfl, Nat.compare_eq_lt.mpr smaller]
      rfl
  · by_cases greater : q' < q ∨ q' = q ∧ m' < m
    · have sizes := canonical'.lt_of_lex canonical greater
      rw [value, value', Nat.cast_lt] at sizes
      rw [Int.compare_eq_gt.mpr (Int.ofNat_lt.mpr sizes)]
      rcases greater with higher | ⟨rfl, larger⟩
      · rw [Int.compare_eq_gt.mpr higher]
        rfl
      · rw [Int.compare_eq_eq.mpr rfl, Nat.compare_eq_gt.mpr larger]
        rfl
    · obtain ⟨rfl, rfl⟩ : q = q' ∧ m = m' := by omega
      obtain rfl : size = size' := by exact_mod_cast value.symm.trans value'
      rw [Int.compare_eq_eq.mpr rfl, Int.compare_eq_eq.mpr rfl, Nat.compare_eq_eq.mpr rfl]
      rfl

theorem compare_neg_neg (a b : Int) : compare (-a) (-b) = (compare a b).swap := by
  cases order : compare a b with
  | lt =>
    have less := Int.compare_eq_lt.mp order
    exact Int.compare_eq_gt.mpr (by omega)
  | eq => exact Int.compare_eq_eq.mpr (by rw [Int.compare_eq_eq.mp order])
  | gt =>
    have greater := Int.compare_eq_gt.mp order
    exact Int.compare_eq_lt.mpr (by omega)

theorem apply_negative_lt (some : 0 < size) : Sign.negative.apply size < 0 := by
  show -(size : ℤ) < 0
  omega

theorem apply_positive_gt (some : 0 < size) : 0 < Sign.positive.apply size := by
  show 0 < (size : ℤ)
  omega

/-- **The order of doubles is that of the whole numbers that they mean.** -/
theorem Means.compare (means : Means u n) (means' : Means u' n') :
    u.compare u' = some (compare n n') := by
  cases means with
  | zero => cases means' with
    | zero => rfl
    | finite _ _ sign positive value =>
      have some := size_pos positive value
      cases sign with
      | negative =>
        rw [Int.compare_eq_gt.mpr (apply_negative_lt some)]
        rfl
      | positive =>
        rw [Int.compare_eq_lt.mpr (apply_positive_gt some)]
        rfl
  | finite canonical _ sign positive value =>
    have some := size_pos positive value
    cases means' with
    | zero => cases sign with
      | negative =>
        rw [Int.compare_eq_lt.mpr (apply_negative_lt some)]
        rfl
      | positive =>
        rw [Int.compare_eq_gt.mpr (apply_positive_gt some)]
        rfl
    | finite canonical' _ sign' positive' value' =>
      have some' := size_pos positive' value'
      have sizes := compare_parts canonical canonical' value value'
      cases sign <;> cases sign'
      case negative.negative =>
        show Option.some ((compare _ _).then (compare _ _)).swap =
          Option.some (compare (-(_ : ℤ)) (-(_ : ℤ)))
        rw [sizes, compare_neg_neg]
      case negative.positive =>
        rw [Int.compare_eq_lt.mpr ((apply_negative_lt some).trans (apply_positive_gt some'))]
        rfl
      case positive.negative =>
        rw [Int.compare_eq_gt.mpr ((apply_negative_lt some').trans (apply_positive_gt some))]
        rfl
      case positive.positive => exact congrArg Option.some sizes

end

/-! ### Rounding -/

section

variable {u u' : UnpackedFloat} {n n' : Int}

/-- A sign in front of a rounded size is in front of the number. -/
theorem rounded_apply (sign : Sign) (size : Nat) :
    rounded (sign.apply size) = sign.apply (roundedSize size) := by
  cases sign with
  | negative => exact (rounded_neg size).trans (congrArg Neg.neg (rounded_natCast size))
  | positive => exact rounded_natCast size

theorem natAbs_apply (sign : Sign) (size : Nat) : (sign.apply size).natAbs = size := by
  cases sign with
  | negative => exact (Int.natAbs_neg _).trans (Int.natAbs_natCast size)
  | positive => exact Int.natAbs_natCast size

/-- What a double means is rounded already. -/
theorem Means.rounded_eq (means : Means u n) (small : n.natAbs.log2 ≤ 1022) : rounded n = n := by
  cases means with
  | zero => rfl
  | finite canonical _ sign positive value =>
    rw [natAbs_apply] at small
    rw [rounded_apply, roundedSize_of_canonical (size_pos positive value) small canonical value]

/-- A signed size with an exponent is rounded as the number that it is. -/
theorem means_round (sign : Sign) {k size : Nat} {exponent : Int} (some : 0 < k)
    (value : (k : ℚ) * 2 ^ exponent = size) (small : size.log2 ≤ 1022) :
    Means (UnpackedFloat.round Format.binary64 sign k exponent) (rounded (sign.apply size)) := by
  obtain ⟨m, q, canonical, positive, finite, rounds, double⟩ :=
    exists_rounds (size_pos some value) small
  rw [round_eq canonical positive some (value ▸ rounds) sign, rounded_apply]
  exact .finite canonical finite sign positive double

/-- A whole number of powers of two is rounded as the number that it is. -/
theorem means_normalize {k exponent : Int} (value : (k : ℚ) * 2 ^ exponent = n)
    (small : n.natAbs.log2 ≤ 1022) :
    Means (UnpackedFloat.normalize Format.binary64 k exponent .positive) (rounded n) := by
  have unit : (0 : ℚ) < 2 ^ exponent := zpow_pos two_pos exponent
  have size : (k.natAbs : ℚ) * 2 ^ exponent = n.natAbs := by
    rw [Nat.cast_natAbs, Nat.cast_natAbs, Int.cast_abs, Int.cast_abs, ← value, abs_mul,
      abs_of_pos unit]
  unfold UnpackedFloat.normalize
  cases order : compare k 0 with
  | lt =>
    have negative := Int.compare_eq_lt.mp order
    have below : n < 0 := by
      have product := mul_neg_of_neg_of_pos (show (k : ℚ) < 0 by exact_mod_cast negative) unit
      rw [value] at product
      exact_mod_cast product
    have means := means_round .negative (by omega) size small
    rw [show Sign.negative.apply n.natAbs = n from by show -(n.natAbs : ℤ) = n; omega] at means
    rwa [show k.natAbs = (-k).toNat by omega] at means
  | eq =>
    have none : n = 0 := by
      rw [Int.compare_eq_eq.mp order, Int.cast_zero, zero_mul] at value
      exact_mod_cast value.symm
    rw [none]
    exact .zero .positive
  | gt =>
    have positive := Int.compare_eq_gt.mp order
    have above : 0 < n := by
      have product := mul_pos (show (0 : ℚ) < k by exact_mod_cast positive) unit
      rw [value] at product
      exact_mod_cast product
    have means := means_round .positive (by omega) size small
    rw [show Sign.positive.apply n.natAbs = n from by show (n.natAbs : ℤ) = n; omega] at means
    rwa [show k.natAbs = k.toNat by omega] at means

/-! ### Sums and differences -/

/-- A size with a sign, brought to a smaller exponent. -/
theorem aligned_value (sign : Sign) {m size : Nat} {q least : Int} (le : least ≤ q)
    (value : (m : ℚ) * 2 ^ q = size) :
    ((sign.apply (decreaseExponent m q least).1 : ℤ) : ℚ) * 2 ^ least =
      ((sign.apply size : ℤ) : ℚ) := by
  have target : (decreaseExponent m q least).2 = least := by
    show q - ((q - least).toNat : ℤ) = least
    omega
  have same := decreaseExponent_value m q least
  rw [target, value] at same
  cases sign with
  | negative =>
    show ((-((decreaseExponent m q least).1 : ℤ) : ℤ) : ℚ) * _ = ((-(size : ℤ) : ℤ) : ℚ)
    rw [Int.cast_neg, Int.cast_neg, Int.cast_natCast, Int.cast_natCast, neg_mul, same]
  | positive => exact_mod_cast same

/-- **A sum of doubles is the sum of the whole numbers, rounded.** -/
theorem Means.add (means : Means u n) (means' : Means u' n')
    (small : (n + n').natAbs.log2 ≤ 1022) :
    Means (UnpackedFloat.add Format.binary64 u u') (rounded (n + n')) := by
  cases means with
  | zero sign => cases means' with
    | zero sign' => cases sign <;> cases sign' <;> exact .zero _
    | finite canonical finite sign' positive value =>
      have means' := Means.finite canonical finite sign' positive value
      rw [zero_add] at small ⊢
      rw [means'.rounded_eq small]
      exact means'
  | @finite _ q _ canonical finite sign positive value => cases means' with
    | zero =>
      have means := Means.finite canonical finite sign positive value
      rw [add_zero] at small ⊢
      rw [means.rounded_eq small]
      exact means
    | @finite _ q' _ _ _ sign' _ value' =>
      have left := aligned_value sign (min_le_left q q') value
      have right := aligned_value sign' (min_le_right q q') value'
      refine means_normalize ?_ small
      rw [Int.cast_add, Int.cast_add, add_mul, ← left, ← right]
      rfl

theorem Means.neg (means : Means u n) : Means u.neg (-n) := by
  cases means with
  | zero sign => exact .zero _
  | @finite _ _ size canonical finite sign positive value => cases sign with
    | negative =>
      have flipped : -Sign.negative.apply size = Sign.positive.apply size := neg_neg _
      rw [flipped]
      exact .finite canonical finite .positive positive value
    | positive => exact .finite canonical finite .negative positive value

theorem Means.abs (means : Means u n) : Means u.abs n.natAbs := by
  cases means with
  | zero sign => exact .zero _
  | finite canonical finite sign positive value =>
    rw [natAbs_apply]
    exact .finite canonical finite .positive positive value

/-- A difference is the sum with the other sign. -/
theorem sub_eq_add_neg (u v : UnpackedFloat) :
    UnpackedFloat.sub Format.binary64 u v = UnpackedFloat.add Format.binary64 u v.neg := by
  cases u with
  | notANumber => rfl
  | infinity => cases v <;> rfl
  | zero => cases v <;> rfl
  | finite s m q positive => cases v with
    | notANumber | infinity | zero => rfl
    | finite s' m' q' positive' => cases s' with
      | negative =>
        show normalize _ (_ - -_) _ _ = normalize _ (_ + _) _ _
        rw [sub_neg_eq_add]
        rfl
      | positive => exact congrArg (normalize _ · _ _) (Int.sub_eq_add_neg)

end

/-! ### Doubles -/

/-- Whether a double means a whole number. -/
def Denotes (x : Float) (n : Int) : Prop := ∃ u, Means u n ∧ .ofModel (.pack u) = x

namespace Denotes

variable {x y : Float} {n k : Int}

theorem exists_unpack (denotes : Denotes x n) : Means x.toModel.unpack n := by
  obtain ⟨u, means, rfl⟩ := denotes
  show Means (Float.Model.pack u).unpack n
  rwa [means.unpack_pack]

theorem lt_iff (first : Denotes x n) (second : Denotes y k) : x < y ↔ n < k := by
  show decide ((x.toModel.unpack.compare y.toModel.unpack == some .lt) = true) = true ↔ _
  rw [first.exists_unpack.compare second.exists_unpack, decide_eq_true_iff, beq_iff_eq,
    Option.some.injEq, Int.compare_eq_lt]

theorem beq_iff (first : Denotes x n) (second : Denotes y k) : (x == y) = true ↔ n = k := by
  show (x.toModel.unpack.compare y.toModel.unpack == some .eq) = true ↔ _
  rw [first.exists_unpack.compare second.exists_unpack, beq_iff_eq, Option.some.injEq,
    Int.compare_eq_eq]

/-- **Doubles are ordered as the whole numbers that they mean.** -/
theorem compareFloats (first : Denotes x n) (second : Denotes y k) :
    compareFloats x y = some (compare n k) := by
  unfold Decimal.compareFloats
  rcases lt_trichotomy n k with less | same | greater
  · rw [if_pos ((first.lt_iff second).mpr less), Int.compare_eq_lt.mpr less]
  · rw [if_neg (mt (first.lt_iff second).mp (by omega)), if_pos ((first.beq_iff second).mpr same),
      Int.compare_eq_eq.mpr same]
  · rw [if_neg (mt (first.lt_iff second).mp (by omega)),
      if_neg (mt (first.beq_iff second).mp (by omega)),
      if_pos ((second.lt_iff first).mpr greater), Int.compare_eq_gt.mpr greater]

theorem neg (denotes : Denotes x n) : Denotes (-x) (-n) :=
  ⟨_, denotes.exists_unpack.neg, rfl⟩

theorem abs (denotes : Denotes x n) : Denotes x.abs n.natAbs :=
  ⟨_, denotes.exists_unpack.abs, rfl⟩

/-- **A sum of whole numbers is rounded once.** -/
theorem add (first : Denotes x n) (second : Denotes y k) (small : (n + k).natAbs.log2 ≤ 1022) :
    Denotes (x + y) (rounded (n + k)) :=
  ⟨_, first.exists_unpack.add second.exists_unpack small, rfl⟩

/-- **A difference of whole numbers is rounded once.** -/
theorem sub (first : Denotes x n) (second : Denotes y k) (small : (n - k).natAbs.log2 ≤ 1022) :
    Denotes (x - y) (rounded (n - k)) := by
  rw [Int.sub_eq_add_neg] at small ⊢
  refine ⟨_, first.exists_unpack.add second.exists_unpack.neg small, ?_⟩
  rw [← sub_eq_add_neg]
  rfl

theorem isFinite (denotes : Denotes x n) : isFinite x = true := by
  obtain ⟨u, means, rfl⟩ := denotes
  cases means with
  | zero sign => cases sign <;> decide +kernel
  | finite canonical finite sign positive =>
    rw [Decimal.isFinite, ofFloat_pack canonical finite positive sign]

/-- A mantissa and a power of two that are a whole number are that number as a fraction. -/
theorem fraction_whole {m size : Nat} {q : Int} (value : (m : ℚ) * 2 ^ q = size) :
    (Binary.fraction m q).1 = size * (Binary.fraction m q).2 ∧ 0 < (Binary.fraction m q).2 := by
  rw [Binary.fraction]
  split
  · rename_i nonnegative
    obtain ⟨places, rfl⟩ := Int.eq_ofNat_of_zero_le nonnegative
    refine ⟨?_, Nat.one_pos⟩
    rw [zpow_natCast] at value
    rw [mul_one]
    exact_mod_cast value
  · rename_i negative
    obtain ⟨places, rfl⟩ : ∃ places : Nat, q = -places := ⟨(-q).toNat, by omega⟩
    refine ⟨?_, Nat.two_pow_pos _⟩
    rw [zpow_neg, zpow_natCast, ← div_eq_mul_inv, div_eq_iff (by positivity)] at value
    rw [neg_neg, Int.toNat_natCast]
    exact_mod_cast value

/-- **The whole number is read out of the bits.** -/
theorem whole? (denotes : Denotes x n) : whole? x = some n := by
  obtain ⟨u, means, rfl⟩ := denotes
  cases means with
  | zero sign => cases sign <;> decide +kernel
  | @finite m q size canonical finite sign positive value =>
    obtain ⟨fraction, some⟩ := fraction_whole value
    unfold Decimal.whole?
    rw [ofFloat_pack canonical finite positive sign]
    simp only [fraction, Nat.mul_mod_left, Nat.mul_div_cancel _ some]
    cases sign <;> rfl

end Denotes

/-! ### Texts of whole numbers -/

/-- The double nearest to a natural number. -/
theorem denotes_nearest {size : Nat} (small : size.log2 ≤ 1022) :
    Denotes (nearest size 0) (roundedSize size) := by
  rcases Nat.eq_zero_or_pos size with rfl | positive
  · exact ⟨.zero .positive, .zero _, by decide +kernel⟩
  · obtain ⟨m, q, canonical, some, finite, rounds, value⟩ := exists_rounds positive small
    have decimal : Rounds m q (size * 10 ^ (0 : ℤ)) := by rwa [zpow_zero, mul_one]
    exact ⟨_, .finite canonical finite .positive some value,
      (nearest_eq canonical finite some decimal).symm⟩

/-- A text that is read as a whole number is a sign and digits. -/
theorem digits_of_int? {text : List Char} {n : Int} (read : int? text = some n) :
    ∃ negative digits, splitSign text = (negative, digits) ∧ AllDigits digits ∧ digits ≠ [] ∧
      n = (if negative then -(numeral digits : ℤ) else numeral digits) ∧
      numeral digits ≤ 2 ^ 63 := by
  cases sign : splitSign text with
  | mk negative digits =>
    rw [int?, sign] at read
    dsimp only at read
    by_cases bad : (digits.isEmpty || !digits.all isDigit) = true
    · rw [if_pos bad] at read
      cases read
    · rw [if_neg bad] at read
      obtain ⟨range, value⟩ := Option.ite_none_right_eq_some.mp read
      rw [Bool.or_eq_true, not_or, Bool.not_eq_true, Bool.not_eq_true, Bool.not_eq_false',
        List.all_eq_true, List.isEmpty_eq_false_iff] at bad
      refine ⟨negative, digits, rfl, fun c member => ?_, bad.1, (Option.some.inj value).symm, ?_⟩
      · exact Char.isDigit_iff_toNat.mpr (of_decide_eq_true (bad.2 c member))
      · change _ ≤ (if negative = true then -(numeral digits : ℤ) else numeral digits) ∧
          (if negative = true then -(numeral digits : ℤ) else numeral digits) < _ at range
        cases negative with
        | true => rw [if_pos rfl] at range; omega
        | false => rw [if_neg Bool.false_ne_true] at range; omega

/-- **The text of a whole number is read as the double nearest to it.** -/
theorem exists_float?_of_int? {text : List Char} {n : Int} (read : int? text = some n) :
    ∃ x, float? text = some x ∧ Denotes x (rounded n) := by
  obtain ⟨negative, digits, sign, all, nonempty, value, small⟩ := digits_of_int? read
  have bits : (numeral digits).log2 ≤ 63 := log2_le_of_lt (by omega)
  have denotes : Denotes (nearest (numeral digits) 0) (roundedSize (numeral digits)) :=
    denotes_nearest (by omega)
  refine ⟨_, float?_digits all nonempty sign, ?_⟩
  rw [value]
  cases negative with
  | true =>
    rw [if_pos rfl, if_pos rfl, rounded_neg, rounded_natCast]
    exact denotes.neg
  | false =>
    rw [if_neg Bool.false_ne_true, if_neg Bool.false_ne_true, rounded_natCast]
    exact denotes

end FieldResolver.Decimal
