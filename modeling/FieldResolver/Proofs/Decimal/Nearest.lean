/-
**Decimals are read as the nearest double.**

`nearest` gives the only double that a decimal rounds to. Small decimals are quotients or products
of two doubles that are exact, all others are computed from whole numbers of any size; beyond the
range of doubles nothing has to be computed.

* `exists_toFloat`, `exists_powerOfTen`: whole numbers and powers of ten that are doubles;
* `float_ofScientific`: decimals within the range that the library computes in;
* `Rounds.exponent_le`, `Rounds.le_exponent`: the range of what rounds to an ordinary double;
* `nearest_eq`: a decimal is read as the double that it rounds to.
-/

import FieldResolver.Proofs.Decimal.Rounded
import FieldResolver.Proofs.Decimal.Text

namespace FieldResolver.Decimal

open Float.Model (UnpackedFloat Format)
open Float.Model.UnpackedFloat

/-! ### Whole numbers and powers of ten as doubles -/

/-- Whether a double is a power of ten, with a mantissa of full length. -/
def isPowerOfTen (x : Float) (exponent : Nat) : Bool :=
  match x.toModel.unpack with
  | .finite .positive m q _ =>
    decide (2 ^ 52 ≤ m) && m * Nat.pow 2 q.toNat == 10 ^ exponent * Nat.pow 2 (-q).toNat
  | _ => false

theorem isPowerOfTen_table : ∀ exponent : Fin Float.exactlyRepresentablePowersOfTen.size,
    isPowerOfTen Float.exactlyRepresentablePowersOfTen[exponent] exponent = true := by
  decide +kernel

theorem exists_powerOfTen {exponent : Nat}
    (small : exponent < Float.exactlyRepresentablePowersOfTen.size) :
    ∃ (m : Nat) (q : Int) (positive : 0 < m),
      Float.exactlyRepresentablePowersOfTen[exponent].toModel.unpack =
        .finite .positive m q positive ∧ 2 ^ 52 ≤ m ∧ (m : ℚ) * 2 ^ q = 10 ^ exponent := by
  have power := isPowerOfTen_table ⟨exponent, small⟩
  unfold isPowerOfTen at power
  split at power
  · rename_i m q positive parts
    rw [Bool.and_eq_true, decide_eq_true_eq, beq_iff_eq] at power
    refine ⟨m, q, positive, parts, power.1, ?_⟩
    have scaled : (m : ℚ) * 2 ^ q.toNat = 10 ^ exponent * 2 ^ (-q).toNat := by
      exact_mod_cast power.2
    have apart : q = q.toNat - (-q).toNat := by omega
    have nonzero : (2 : ℚ) ^ (-q).toNat ≠ 0 := by positivity
    rw [apart, zpow_sub₀ (by norm_num), zpow_natCast, zpow_natCast, ← mul_div_assoc, scaled,
      mul_div_cancel_right₀ _ nonzero]
  · cases power

/-- A whole number below `2 ^ 53` is a double. -/
theorem exists_toFloat {n : Nat} (positive : 0 < n) (small : n < 2 ^ 53) :
    ∃ (m : Nat) (q : Int) (mPositive : 0 < m),
      n.toUInt64.toFloat.toModel.unpack = .finite .positive m q mPositive ∧
        2 ^ 52 ≤ m ∧ (m : ℚ) * 2 ^ q = n := by
  have short := log2_le_of_lt small
  obtain ⟨least, canonical, value⟩ := canonical_of_short positive short
  obtain ⟨places, full⟩ : ∃ places, n.log2 + places = 52 := ⟨52 - n.log2, by omega⟩
  rw [show 52 - n.log2 = places by omega] at least canonical value
  have mPositive : 0 < n * 2 ^ places := Nat.mul_pos positive (Nat.two_pow_pos places)
  have whole : n.toUInt64.toNat = n := UInt64.toNat_ofNat_of_lt (by
    show n < 2 ^ 64
    omega)
  have rounds : Rounds (n * 2 ^ places) (-(places : ℤ)) ((n : ℚ) * 2 ^ (0 : ℤ)) := by
    rw [zpow_zero, mul_one, ← value]
    exact rounds_self _ _
  have rounded : UnpackedFloat.ofUInt64 Format.binary64 n.toUInt64 =
      .finite .positive (n * 2 ^ places) (-places) mPositive := by
    have order : compare (n : ℤ) 0 = .gt := Int.compare_eq_gt.mpr (by omega)
    rw [UnpackedFloat.ofUInt64, UnpackedFloat.ofNat, UnpackedFloat.ofInt, UnpackedFloat.normalize,
      whole, order]
    exact round_eq canonical mPositive positive rounds .positive
  refine ⟨n * 2 ^ places, -places, mPositive, ?_, least, value⟩
  show (Float.Model.pack _).unpack = _
  rw [rounded]
  exact unpack_pack canonical (by omega) mPositive .positive

/-! ### Decimals -/

section

variable {m : Nat} {q : Int}

/-- The double of a mantissa and an exponent. -/
def ofParts (m : Nat) (q : Int) (positive : 0 < m) : Float :=
  .ofModel (.pack (.finite .positive m q positive))

/-- A decimal within the range that the library computes in is the double that it rounds to. -/
theorem unpacked_ofScientific (canonical : Canonical m q) (positive : 0 < m) {n : Nat}
    {exponent : Int} (nonzero : 0 < n) (below : exponent ≤ 2048)
    (above : -(2048 + (n.log2 : ℤ)) ≤ exponent) (rounds : Rounds m q (n * 10 ^ exponent)) :
    UnpackedFloat.ofScientific Format.binary64 n exponent = .finite .positive m q positive := by
  unfold UnpackedFloat.ofScientific
  have width : Format.binary64.mantissaBits = 53 := rfl
  have range : (2 : ℤ) ^ Format.binary64.exponentBits = 2048 := by norm_num
  rw [dif_neg nonzero.ne', if_neg (by rw [range]; omega), if_neg (by rw [range]; omega)]
  split
  · rename_i whole
    obtain ⟨places, rfl⟩ := Int.eq_ofNat_of_zero_le whole
    have power : 0 < 10 ^ (places : ℤ).toNat := Nat.pow_pos (by norm_num)
    have padded : n <<< 53 = n * 2 ^ 53 := Nat.shiftLeft_eq n 53
    refine mul_finite canonical positive _ _ ?_ ?_
    · show 2 ^ 52 ≤ n <<< 53 * 10 ^ (places : ℤ).toNat
      rw [padded]
      calc 2 ^ 52 ≤ 1 * 2 ^ 53 * 1 := by norm_num
        _ ≤ n * 2 ^ 53 * 10 ^ (places : ℤ).toNat :=
          Nat.mul_le_mul (Nat.mul_le_mul_right _ nonzero) power
    · show Rounds m q (((n <<< 53 : ℕ) : ℚ) * ((10 ^ (places : ℤ).toNat : ℕ) : ℚ) *
        2 ^ (-((53 : ℕ) : ℤ) + 0))
      convert rounds using 1
      rw [padded, add_zero, zpow_neg, zpow_natCast, Int.toNat_natCast, zpow_natCast]
      push_cast
      field_simp
      norm_num
  · obtain ⟨places, rfl⟩ : ∃ places : Nat, exponent = -places := ⟨(-exponent).toNat, by omega⟩
    refine div_finite canonical positive _ _ ?_
    convert rounds using 1
    rw [neg_neg, Int.toNat_natCast, sub_zero, zpow_zero, mul_one, zpow_neg, zpow_natCast]
    push_cast
    rfl

/-- The product of two doubles as what the product of their values rounds to. -/
theorem float_mul (canonical : Canonical m q) (positive : 0 < m) {x y : Float} {m₁ m₂ : Nat}
    {q₁ q₂ : Int} {positive₁ : 0 < m₁} {positive₂ : 0 < m₂}
    (left : x.toModel.unpack = .finite .positive m₁ q₁ positive₁)
    (right : y.toModel.unpack = .finite .positive m₂ q₂ positive₂) (wide : 2 ^ 52 ≤ m₁)
    (rounds : Rounds m q ((m₁ * 2 ^ q₁) * (m₂ * 2 ^ q₂))) : x * y = ofParts m q positive := by
  have large : 2 ^ 52 ≤ m₁ * m₂ := wide.trans (Nat.le_mul_of_pos_right _ positive₂)
  have product : ((m₁ : ℚ) * 2 ^ q₁) * (m₂ * 2 ^ q₂) = m₁ * m₂ * 2 ^ (q₁ + q₂) := by
    rw [zpow_add₀ (by norm_num)]
    ring
  rw [product] at rounds
  show Float.ofModel (.pack (UnpackedFloat.mul Format.binary64 x.toModel.unpack
    y.toModel.unpack)) = _
  rw [left, right, mul_finite canonical positive positive₁ positive₂ large rounds]
  rfl

/-- The quotient of two doubles as what the quotient of their values rounds to. -/
theorem float_div (canonical : Canonical m q) (positive : 0 < m) {x y : Float} {m₁ m₂ : Nat}
    {q₁ q₂ : Int} {positive₁ : 0 < m₁} {positive₂ : 0 < m₂}
    (left : x.toModel.unpack = .finite .positive m₁ q₁ positive₁)
    (right : y.toModel.unpack = .finite .positive m₂ q₂ positive₂)
    (rounds : Rounds m q ((m₁ * 2 ^ q₁) / (m₂ * 2 ^ q₂))) : x / y = ofParts m q positive := by
  have quotient : ((m₁ : ℚ) * 2 ^ q₁) / (m₂ * 2 ^ q₂) = m₁ / m₂ * 2 ^ (q₁ - q₂) := by
    rw [zpow_sub₀ (by norm_num), mul_div_mul_comm]
  rw [quotient] at rounds
  show Float.ofModel (.pack (UnpackedFloat.div Format.binary64 x.toModel.unpack
    y.toModel.unpack)) = _
  rw [left, right, div_finite canonical positive positive₁ positive₂ rounds]
  rfl

/-- An exponent is its sign and its absolute value. -/
theorem ofSign_natAbs (exponent : Int) :
    (if decide (exponent < 0) = true then Int.negOfNat exponent.natAbs
      else Int.ofNat exponent.natAbs) = exponent := by
  split <;> rename_i negative <;> rw [decide_eq_true_eq] at negative
  · rw [Int.negOfNat_eq, Int.ofNat_eq_natCast]
    omega
  · rw [Int.ofNat_eq_natCast]
    omega

/-- A decimal of few digits is a quotient or a product of two doubles, any other one is computed
from whole numbers; both give the double that it rounds to. -/
theorem float_ofScientific (canonical : Canonical m q) (positive : 0 < m) {n : Nat}
    {exponent : Int} (nonzero : 0 < n) (below : exponent ≤ 2048)
    (above : -(2048 + (n.log2 : ℤ)) ≤ exponent) (rounds : Rounds m q (n * 10 ^ exponent)) :
    Float.ofScientific n (decide (exponent < 0)) exponent.natAbs = ofParts m q positive := by
  unfold Float.ofScientific
  split
  · rename_i short
    obtain ⟨m₁, q₁, positive₁, parts₁, wide, value₁⟩ := exists_toFloat nonzero short.1
    have known : exponent.natAbs < Float.exactlyRepresentablePowersOfTen.size :=
      Nat.lt_succ_of_le short.2
    obtain ⟨m₂, q₂, positive₂, parts₂, -, value₂⟩ := exists_powerOfTen known
    simp only [decide_eq_true_eq]
    generalize Float.exactlyRepresentablePowersOfTen[exponent.natAbs] = power at parts₂ ⊢
    split
    · rename_i negative
      refine float_div canonical positive parts₁ parts₂ ?_
      have places : exponent = -(exponent.natAbs : ℤ) := by omega
      rw [places, zpow_neg, zpow_natCast, ← div_eq_mul_inv] at rounds
      rw [value₁, value₂]
      exact rounds
    · rename_i whole
      refine float_mul canonical positive parts₁ parts₂ wide ?_
      have places : exponent = (exponent.natAbs : ℤ) := by omega
      rw [places, zpow_natCast] at rounds
      rw [value₁, value₂]
      exact rounds
  · show Float.ofModel (.pack (UnpackedFloat.ofScientific Format.binary64 n _)) = _
    rw [ofSign_natAbs, unpacked_ofScientific canonical positive nonzero below above rounds]
    rfl

/-- What rounds to an ordinary double is below `2 ^ 1024`. -/
theorem Rounds.lt_two_pow (canonical : Canonical m q) (finite : q ≤ 971) {value : ℚ}
    (rounds : Rounds m q value) : value < 2 ^ 1024 := by
  have below := canonical.below
  have mantissa : ((4 * m + 2 : ℤ) : ℚ) < 2 ^ 55 := by
    have : (4 * m + 2 : ℤ) < 2 ^ 55 := by omega
    exact_mod_cast this
  have power : (2 : ℚ) ^ (q - 2) ≤ 2 ^ (969 : ℤ) := zpow_le_zpow_right₀ (by norm_num) (by omega)
  calc value ≤ ((4 * m + 2 : ℤ) : ℚ) * 2 ^ (q - 2) := rounds.high
    _ ≤ ((4 * m + 2 : ℤ) : ℚ) * 2 ^ (969 : ℤ) :=
      mul_le_mul_of_nonneg_left power (by positivity)
    _ < 2 ^ 55 * 2 ^ (969 : ℤ) := mul_lt_mul_of_pos_right mantissa (by positivity)
    _ = 2 ^ 1024 := by
      rw [← zpow_natCast, ← zpow_natCast, ← zpow_add₀ (by norm_num)]
      rfl

/-- What rounds to a double above zero is at least half of the least one. -/
theorem Rounds.two_pow_le (canonical : Canonical m q) (positive : 0 < m) {value : ℚ}
    (rounds : Rounds m q value) : 1 ≤ value * 2 ^ 1075 := by
  have least := canonical.least
  have mantissa : (2 : ℚ) ≤ ((4 * m - reach m q : ℤ) : ℚ) := by
    have : (2 : ℤ) ≤ 4 * m - reach m q := by
      rw [reach]
      split <;> omega
    exact_mod_cast this
  have power : (2 : ℚ) ^ (-1076 : ℤ) ≤ 2 ^ (q - 2) := zpow_le_zpow_right₀ (by norm_num) (by omega)
  have low : (2 : ℚ) * 2 ^ (-1076 : ℤ) ≤ value :=
    (mul_le_mul mantissa power (by positivity) (by linarith)).trans rounds.low
  calc (1 : ℚ) = 2 ^ (1 : ℤ) * 2 ^ (-1076 : ℤ) * 2 ^ ((1075 : ℕ) : ℤ) := by
        rw [← zpow_add₀ (by norm_num), ← zpow_add₀ (by norm_num)]
        rfl
    _ = 2 * 2 ^ (-1076 : ℤ) * 2 ^ 1075 := by rw [zpow_one, zpow_natCast]
    _ ≤ value * 2 ^ 1075 := mul_le_mul_of_nonneg_right low (by positivity)

/-- A decimal whose exponent is large rounds to no ordinary double. -/
theorem Rounds.exponent_le (canonical : Canonical m q) (finite : q ≤ 971) {n : Nat}
    (nonzero : 0 < n) {exponent : Int} (rounds : Rounds m q (n * 10 ^ exponent)) :
    exponent ≤ 400 := by
  by_contra great
  obtain ⟨places, rfl⟩ := Int.eq_ofNat_of_zero_le (show 0 ≤ exponent by omega)
  have many : 1024 ≤ 3 * places := by omega
  have bound := rounds.lt_two_pow canonical finite
  rw [zpow_natCast] at bound
  have whole : n * 10 ^ places < 2 ^ 1024 := by exact_mod_cast bound
  refine absurd whole (Nat.not_lt.mpr ?_)
  refine (pow_le_pow_right₀ one_le_two many).trans ?_
  calc 2 ^ (3 * places) = 8 ^ places := pow_mul 2 3 places
    _ ≤ 10 ^ places := Nat.pow_le_pow_left (by norm_num) _
    _ ≤ n * 10 ^ places := Nat.le_mul_of_pos_left _ nonzero

/-- A decimal whose exponent is small rounds to zero. -/
theorem Rounds.le_exponent (canonical : Canonical m q) (positive : 0 < m) {n : Nat} {exponent : Int}
    (rounds : Rounds m q (n * 10 ^ exponent)) : -(400 + (n.log2 : ℤ)) ≤ exponent := by
  by_contra small
  obtain ⟨places, rfl⟩ : ∃ places : Nat, exponent = -places := ⟨(-exponent).toNat, by omega⟩
  have many : n.log2 + 1 + 1075 ≤ 3 * places := by omega
  have bound := rounds.two_pow_le canonical positive
  rw [zpow_neg, zpow_natCast, mul_right_comm, ← div_eq_mul_inv, one_le_div (by positivity)]
    at bound
  have whole : 10 ^ places ≤ n * 2 ^ 1075 := by exact_mod_cast bound
  refine absurd whole (Nat.not_le.mpr ?_)
  calc n * 2 ^ 1075 < 2 ^ (n.log2 + 1) * 2 ^ 1075 :=
        Nat.mul_lt_mul_of_pos_right Nat.lt_log2_self (pow_pos two_pos _)
    _ = 2 ^ (n.log2 + 1 + 1075) := (pow_add _ _ _).symm
    _ ≤ 2 ^ (3 * places) := pow_le_pow_right₀ one_le_two many
    _ = 8 ^ places := pow_mul 2 3 places
    _ ≤ 10 ^ places := Nat.pow_le_pow_left (by norm_num) _

/-- **A decimal is read as the double that it rounds to.** -/
theorem nearest_eq (canonical : Canonical m q) (finite : q ≤ 971) (positive : 0 < m) {n : Nat}
    {exponent : Int} (rounds : Rounds m q (n * 10 ^ exponent)) :
    nearest n exponent = ofParts m q positive := by
  have nonzero : 0 < n := by
    refine Nat.pos_of_ne_zero ?_
    rintro rfl
    have above := rounds.pos positive
    rw [Nat.cast_zero, zero_mul] at above
    exact lt_irrefl _ above
  have below := rounds.exponent_le canonical finite nonzero
  have above := rounds.le_exponent canonical positive
  rw [nearest, if_neg nonzero.ne', if_neg (by omega), if_neg (by omega)]
  exact float_ofScientific canonical positive nonzero (by omega) (by omega) rounds

end

end FieldResolver.Decimal
