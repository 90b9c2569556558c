/-
**Arithmetic of doubles is rounded correctly.**

The library says what doubles do on unpacked mantissas and exponents. A mantissa with its residual
bits stands for a number; shifting it keeps what it stands for, and rounding gives the nearest
mantissa. So a product or a quotient is the only double that the exact result rounds to.

* `Stands`: the number that a mantissa with residual bits stands for;
* `roundWithAccuracy_eq`, `round_eq`: rounding gives the only double that a number rounds to;
* `ofFloat_pack`, `unpack_pack`: a canonical mantissa is read out of the bits it is packed into;
* `mul_finite`, `div_finite`: products and quotients.
-/

import FieldResolver.Proofs.Decimal.Rounding
import Mathlib

namespace FieldResolver.Decimal

open Float.Model (UnpackedFloat Format)
open Float.Model.UnpackedFloat

/-! ### Mantissas with residual bits -/

/-- A mantissa with the first of its residual bits, in halves of the last place. -/
def halves (m : ExtendedMantissa) : Nat := 2 * m.mantissa + m.roundBit.toNat

/-- Whether a mantissa with its residual bits stands for a number, counted in units of the last
place: the first bit says in which half of the place the number is, and the second whether there is
more to it. -/
structure Stands (m : ExtendedMantissa) (value : ℚ) : Prop where
  low : (halves m : ℚ) ≤ 2 * value
  high : 2 * value < halves m + 1
  exact : m.stickyBit = false ↔ 2 * value = halves m

section

variable {m : ExtendedMantissa} {value : ℚ}

theorem halves_shiftRightOne (m : ExtendedMantissa) : halves m.shiftRightOne = m.mantissa := by
  have parity := Nat.mod_two_eq_zero_or_one m.mantissa
  have bit : (m.mantissa % 2 != 0).toNat = m.mantissa % 2 := by
    rcases parity with even | odd
    · rw [even]; rfl
    · rw [odd]; rfl
  show 2 * (m.mantissa / 2) + (m.mantissa % 2 != 0).toNat = m.mantissa
  rw [bit, Nat.div_add_mod]

theorem halves_of_false (bit : m.roundBit = false) : (halves m : ℚ) = 2 * m.mantissa := by
  rw [halves, bit]
  push_cast [Bool.toNat_false]
  ring

theorem halves_of_true (bit : m.roundBit = true) : (halves m : ℚ) = 2 * m.mantissa + 1 := by
  rw [halves, bit]
  push_cast [Bool.toNat_true]
  ring

/-- Shifting by a place halves what a mantissa stands for. -/
theorem Stands.shiftRightOne (stands : Stands m value) : Stands m.shiftRightOne (value / 2) := by
  obtain ⟨low, high, exact⟩ := stands
  have sticky : m.shiftRightOne.stickyBit = (m.roundBit || m.stickyBit) := rfl
  have doubled : 2 * (value / 2) = value := by ring
  cases bit : m.roundBit with
  | false =>
    rw [halves_of_false bit] at low high exact
    refine ⟨?_, ?_, ?_⟩ <;> rw [doubled, halves_shiftRightOne]
    · linarith
    · linarith
    · rw [sticky, bit, Bool.false_or, exact]
      constructor <;> intro same <;> linarith
  | true =>
    rw [halves_of_true bit] at low high exact
    refine ⟨?_, ?_, ?_⟩ <;> rw [doubled, halves_shiftRightOne]
    · linarith
    · linarith
    · rw [sticky, bit, Bool.true_or]
      exact ⟨fun never => (nomatch never), fun same => by linarith⟩

theorem Stands.shiftRight (stands : Stands m value) (places : Nat) :
    Stands (m >>> places) (value / 2 ^ places) := by
  induction places with
  | zero => rwa [pow_zero, div_one]
  | succ places ih =>
    rw [pow_succ, ← div_div]
    exact ih.shiftRightOne

theorem mantissa_shiftRight (m : ExtendedMantissa) (places : Nat) :
    (m >>> places).mantissa = m.mantissa / 2 ^ places := by
  induction places with
  | zero => exact (Nat.div_one _).symm
  | succ places ih =>
    rw [pow_succ, ← Nat.div_div_eq_div_mul, ← ih]
    rfl

/-- A mantissa is the whole part of what it stands for. -/
theorem Stands.whole (stands : Stands m value) :
    (m.mantissa : ℚ) ≤ value ∧ value < m.mantissa + 1 := by
  have low := stands.low
  have high := stands.high
  cases bit : m.roundBit with
  | false =>
    rw [halves_of_false bit] at low high
    constructor <;> linarith
  | true =>
    rw [halves_of_true bit] at low high
    constructor <;> linarith

/-- Whether a whole number is the nearest one, the even one of two. -/
structure Nearest (n : Nat) (value : ℚ) : Prop where
  low : (n : ℚ) - 1 / 2 ≤ value
  high : value ≤ n + 1 / 2
  odd : n % 2 = 1 → (n : ℚ) - 1 / 2 < value ∧ value < n + 1 / 2

/-- Rounding gives the nearest mantissa, or the even one of two. -/
theorem Stands.nearest (stands : Stands m value) : Nearest m.roundedMantissa value := by
  obtain ⟨mantissa, roundBit, stickyBit⟩ := m
  obtain ⟨low, high, exact⟩ := stands
  cases roundBit with
  | false =>
    rw [halves_of_false rfl] at low high exact
    have kept : ExtendedMantissa.roundedMantissa ⟨mantissa, false, stickyBit⟩ = mantissa := by
      cases stickyBit <;> rfl
    rw [kept]
    dsimp only at low high
    exact ⟨by linarith, by linarith, fun _ => ⟨by linarith, by linarith⟩⟩
  | true =>
    rw [halves_of_true rfl] at low high exact
    dsimp only at low high exact
    cases stickyBit with
    | false =>
      have middle := exact.mp rfl
      have kept : ExtendedMantissa.roundedMantissa ⟨mantissa, true, false⟩ =
        mantissa + mantissa % 2 := rfl
      rw [kept]
      refine ⟨?_, ?_, fun odd => by omega⟩ <;>
        rcases Nat.mod_two_eq_zero_or_one mantissa with even | odd <;> push_cast [*] <;> linarith
    | true =>
      have above : 2 * value ≠ 2 * (mantissa : ℚ) + 1 := fun same => nomatch exact.mpr same
      have strict := lt_of_le_of_ne low above.symm
      have kept : ExtendedMantissa.roundedMantissa ⟨mantissa, true, true⟩ = mantissa + 1 := rfl
      rw [kept]
      refine ⟨?_, ?_, fun _ => ⟨?_, ?_⟩⟩ <;> push_cast <;> linarith

/-- Rounding keeps a mantissa or takes the next one. -/
theorem Stands.roundedMantissa_le (stands : Stands m value) :
    m.mantissa ≤ m.roundedMantissa ∧ m.roundedMantissa ≤ m.mantissa + 1 := by
  obtain ⟨least, below⟩ := stands.whole
  obtain ⟨low, high, -⟩ := stands.nearest
  have atLeast : (m.mantissa : ℚ) < m.roundedMantissa + 1 := by linarith
  have atMost : (m.roundedMantissa : ℚ) < m.mantissa + 2 := by linarith
  norm_cast at atLeast atMost
  omega

end

/-! ### Rounding to a canonical mantissa -/

/-- The exponent that a mantissa is brought to. -/
theorem targetExponent_eq (mantissa : Nat) (exponent : Int) :
    Format.binary64.targetExponent (Float.Model.totalExponent mantissa exponent) =
      max (mantissa.log2 + exponent - 52) (-1074) := by
  simp only [Format.targetExponent, Float.Model.totalExponent, Format.mantissaBits,
    Format.minExponent]
  norm_num
  omega

theorem div_pow_lt {mantissa places : Nat} (few : mantissa.log2 ≤ 52 + places) :
    mantissa / 2 ^ places < 2 ^ 53 := by
  rw [Nat.div_lt_iff_lt_mul (Nat.two_pow_pos places), ← pow_add]
  exact lt_of_lt_of_le Nat.lt_log2_self (Nat.pow_le_pow_right (by norm_num) (by omega))

theorem le_div_pow {mantissa places : Nat} (many : mantissa.log2 = 52 + places) :
    2 ^ 52 ≤ mantissa / 2 ^ places := by
  have nonzero : mantissa ≠ 0 := by
    rintro rfl
    rw [Nat.log2_zero] at many
    omega
  rw [Nat.le_div_iff_mul_le (Nat.two_pow_pos places), ← pow_add, ← many]
  exact Nat.log2_self_le nonzero

/-- A mantissa that has come out one place too long is shifted once more. -/
theorem shiftToTargetExponent_rounded (mantissa : Nat) (exponent : Int)
    (short : mantissa ≤ 2 ^ 53) (least : -1074 ≤ exponent)
    (normal : 2 ^ 52 ≤ mantissa ∨ exponent = -1074) :
    shiftToTargetExponent Format.binary64 mantissa exponent .exact =
      if mantissa = 2 ^ 53 then (⟨2 ^ 52, false, false⟩, exponent + 1)
      else (⟨mantissa, false, false⟩, exponent) := by
  split
  · rename_i long
    subst long
    rw [shiftToTargetExponent, targetExponent_eq, Nat.log2_two_pow]
    have one : (max (((53 : ℕ) : ℤ) + exponent - 52) (-1074) - exponent).toNat = 1 := by omega
    rw [shiftToExponent, one]
    rfl
  · have size : mantissa.log2 ≤ 52 := by
      have below : mantissa < 2 ^ 53 := by omega
      by_cases zero : mantissa = 0
      · simp [zero]
      · exact Nat.lt_succ_iff.mp ((Nat.log2_lt zero).mpr below)
    rw [shiftToTargetExponent, targetExponent_eq]
    have none : (max ((mantissa.log2 : ℤ) + exponent - 52) (-1074) - exponent).toNat = 0 := by
      omega
    rw [shiftToExponent, none]
    simp only [Nat.cast_zero, add_zero]
    rfl

/-- A number rounds to the nearest mantissa of its last place. -/
theorem Nearest.rounds {n : Nat} {t : Int} {value : ℚ} (nearest : Nearest n value)
    (above : n = 2 ^ 52 → -1074 < t → (n : ℚ) ≤ value) : Rounds n t (value * 2 ^ t) := by
  have unit : (0 : ℚ) < 2 ^ (t - 2) := zpow_pos (by norm_num) _
  have quarters : value * 2 ^ t = (4 * value) * 2 ^ (t - 2) := by
    rw [two_zpow_eq]
    ring
  obtain ⟨low, high, odd⟩ := nearest
  rw [quarters]
  by_cases power : n = 2 ^ 52 ∧ -1074 < t
  · have least := above power.1 power.2
    have reach_eq : reach n t = 1 := if_pos power
    refine ⟨?_, ?_, fun parity => absurd parity (by omega)⟩ <;> rw [mul_le_mul_iff_left₀ unit]
    · push_cast [reach_eq]
      linarith
    · push_cast
      linarith
  · have reach_eq : reach n t = 2 := if_neg power
    refine ⟨?_, ?_, fun parity => ?_⟩
    · rw [mul_le_mul_iff_left₀ unit]
      push_cast [reach_eq]
      linarith
    · rw [mul_le_mul_iff_left₀ unit]
      push_cast
      linarith
    · obtain ⟨strictLow, strictHigh⟩ := odd parity
      rw [ne_eq, ne_eq, mul_left_inj' unit.ne', mul_left_inj' unit.ne']
      push_cast [reach_eq]
      constructor <;> intro same <;> linarith

/-- A number whose nearest mantissa has become too long rounds to the least one of the next
place. -/
theorem Nearest.rounds_long {t : Int} {value : ℚ} (nearest : Nearest (2 ^ 53) value)
    (below : value < 2 ^ 53) (least : -1074 ≤ t) : Rounds (2 ^ 52) (t + 1) (value * 2 ^ t) := by
  have unit : (0 : ℚ) < 2 ^ (t + 1 - 2) := zpow_pos (by norm_num) _
  have halved : value * 2 ^ t = (2 * value) * 2 ^ (t + 1 - 2) := by
    rw [show t + 1 - 2 = t - 1 by ring, zpow_sub₀ (by norm_num)]
    norm_num
    ring
  have reach_eq : reach (2 ^ 52) (t + 1) = 1 := if_pos ⟨rfl, by omega⟩
  have low := nearest.low
  rw [halved]
  refine ⟨?_, ?_, fun parity => absurd parity (by norm_num)⟩ <;> rw [mul_le_mul_iff_left₀ unit]
  · rw [reach_eq]
    push_cast at low ⊢
    linarith
  · push_cast
    linarith

theorem mantissa_ofMantissaAndAccuracy (mantissa : Nat) (accuracy : Accuracy) :
    (ExtendedMantissa.ofMantissaAndAccuracy mantissa accuracy).mantissa = mantissa := by
  cases accuracy with
  | exact => rfl
  | inexact half => cases half <;> rfl

/-- A mantissa that is long enough is shifted to one of full length, or to the least exponent, and
what it stands for is counted in the new last place. -/
theorem exists_shiftToTargetExponent {mantissa : Nat} {exponent : Int} {accuracy : Accuracy}
    {value : ℚ} (stands : Stands (.ofMantissaAndAccuracy mantissa accuracy) value)
    (wide : 2 ^ 52 ≤ mantissa ∨ exponent ≤ -1074) :
    ∃ (shifted : ExtendedMantissa) (t : Int) (count : ℚ),
      shiftToTargetExponent Format.binary64 mantissa exponent accuracy = (shifted, t) ∧
      Canonical shifted.mantissa t ∧ Stands shifted count ∧
      value * 2 ^ exponent = count * 2 ^ t := by
  let places := (max (mantissa.log2 + exponent - 52) (-1074) - exponent).toNat
  let shifted := ExtendedMantissa.ofMantissaAndAccuracy mantissa accuracy >>> places
  have size : 2 ^ 52 ≤ mantissa → 52 ≤ mantissa.log2 := fun large =>
    (Nat.le_log2 (by omega)).mpr large
  have reached : exponent + places = max (mantissa.log2 + exponent - 52) (-1074) := by
    omega
  have shiftedMantissa : shifted.mantissa = mantissa / 2 ^ places := by
    rw [mantissa_shiftRight, mantissa_ofMantissaAndAccuracy]
  refine ⟨shifted, exponent + places, value / 2 ^ places, ?_, ⟨?_, by omega, ?_⟩,
    stands.shiftRight places, ?_⟩
  · rw [shiftToTargetExponent, targetExponent_eq]
    rfl
  · rw [shiftedMantissa]
    exact div_pow_lt (by omega)
  · by_cases bottom : exponent + places = -1074
    · exact .inr bottom
    · rw [shiftedMantissa]
      exact .inl (le_div_pow (by omega))
  · rw [zpow_add₀ (by norm_num), zpow_natCast]
    field_simp

/-- **Rounding gives the only double that a number rounds to.** -/
theorem roundWithAccuracy_eq {m : Nat} {q : Int} (canonical : Canonical m q) (positive : 0 < m)
    {mantissa : Nat} {exponent : Int} {accuracy : Accuracy} {value : ℚ}
    (stands : Stands (.ofMantissaAndAccuracy mantissa accuracy) value)
    (wide : 2 ^ 52 ≤ mantissa ∨ exponent ≤ -1074)
    (rounds : Rounds m q (value * 2 ^ exponent)) (sign : Sign) :
    roundWithAccuracy Format.binary64 sign mantissa exponent accuracy =
      .finite sign m q positive := by
  obtain ⟨shifted, t, count, first, ⟨short, bottom, normal⟩, stands, same⟩ :=
    exists_shiftToTargetExponent stands wide
  rw [same] at rounds
  have nearest := stands.nearest
  obtain ⟨least, below⟩ := stands.whole
  obtain ⟨atLeast, atMost⟩ := stands.roundedMantissa_le
  have second := shiftToTargetExponent_rounded shifted.roundedMantissa t (by omega) bottom
    (by omega)
  by_cases long : shifted.roundedMantissa = 2 ^ 53
  · rw [if_pos long] at second
    rw [long] at nearest
    have bound : (shifted.mantissa : ℚ) + 1 ≤ 2 ^ 53 := by exact_mod_cast short
    have canonical' : Canonical (2 ^ 52) (t + 1) := ⟨by norm_num, by omega, .inl le_rfl⟩
    obtain ⟨rfl, rfl⟩ := rounds.unique canonical canonical'
      (nearest.rounds_long (lt_of_lt_of_le below bound) bottom)
    simp only [roundWithAccuracy, first, second]
    exact dif_neg (by norm_num)
  · rw [if_neg long] at second
    have canonical' : Canonical shifted.roundedMantissa t := ⟨by omega, bottom, by omega⟩
    obtain ⟨rfl, rfl⟩ := rounds.unique canonical canonical' (nearest.rounds fun power upper => by
      have large : 2 ^ 52 ≤ shifted.mantissa := normal.resolve_right (by omega)
      rw [power]
      exact le_trans (by exact_mod_cast large) least)
    simp only [roundWithAccuracy, first, second]
    exact dif_neg positive.ne'

theorem stands_exact (n : Nat) : Stands (.ofMantissaAndAccuracy n .exact) n := by
  have halves_eq : (halves (.ofMantissaAndAccuracy n .exact) : ℚ) = 2 * n := halves_of_false rfl
  refine ⟨?_, ?_, ?_⟩ <;> rw [halves_eq]
  · linarith
  · exact ⟨fun _ => rfl, fun _ => rfl⟩

theorem two_pow_le_shiftLeft {k : Nat} (positive : 0 < k) (places : Nat) :
    2 ^ (k.log2 + places) ≤ k <<< places := by
  rw [Nat.shiftLeft_eq, pow_add]
  exact Nat.mul_le_mul_right _ (Nat.log2_self_le positive.ne')

/-- A smaller exponent with a longer mantissa is the same number. -/
theorem decreaseExponent_value (k : Nat) (exponent target : Int) :
    ((decreaseExponent k exponent target).1 : ℚ) * 2 ^ (decreaseExponent k exponent target).2 =
      k * 2 ^ exponent := by
  show ((k <<< _ : ℕ) : ℚ) * 2 ^ (exponent - _) = _
  rw [Nat.shiftLeft_eq, zpow_sub₀ two_ne_zero, zpow_natCast]
  push_cast
  field_simp

/-- **Rounding gives the only double that a number rounds to.** -/
theorem round_eq {m : Nat} {q : Int} (canonical : Canonical m q) (positive : 0 < m) {k : Nat}
    {exponent : Int}
    (some : 0 < k) (rounds : Rounds m q (k * 2 ^ exponent)) (sign : Sign) :
    UnpackedFloat.round Format.binary64 sign k exponent = .finite sign m q positive := by
  rw [← decreaseExponent_value k exponent (max (k.log2 + exponent - 52) (-1074))] at rounds
  rw [UnpackedFloat.round, targetExponent_eq]
  refine roundWithAccuracy_eq canonical positive (stands_exact _) ?_ rounds sign
  show 2 ^ 52 ≤ k <<< _ ∨ exponent - _ ≤ -1074
  by_cases bottom : exponent - (exponent - max (k.log2 + exponent - 52) (-1074)).toNat ≤ -1074
  · exact .inr bottom
  · refine .inl (le_trans ?_ (two_pow_le_shiftLeft some _))
    exact Nat.pow_le_pow_right two_pos (by omega)

/-! ### Packing -/

/-- The bits of a sign, an exponent and a fraction as a number. -/
theorem toNat_packComponents (sign : Sign) (exponent : BitVec 11) (fraction : BitVec 52) :
    (packComponents Format.binary64 sign exponent fraction).toNat =
      sign.toBitVec.toNat * 2 ^ 63 + exponent.toNat * 2 ^ 52 + fraction.toNat := by
  have short := exponent.isLt
  have small := fraction.isLt
  unfold packComponents
  rw [BitVec.toNat_append, BitVec.toNat_append, ← Nat.shiftLeft_add_eq_or_of_lt short,
    ← Nat.shiftLeft_add_eq_or_of_lt small, Nat.shiftLeft_eq, Nat.shiftLeft_eq]
  ring

section

variable {m : Nat} {q : Int}

/-- The fields of the bits of a canonical mantissa. -/
theorem pack_finite (canonical : Canonical m q) (finite : q ≤ 971) (positive : 0 < m)
    (sign : Sign) :
    UnpackedFloat.pack Format.binary64 (.finite sign m q positive) =
      packComponents Format.binary64 sign
        (if 2 ^ 52 ≤ m then BitVec.ofNat 11 (q + 1075).toNat else 0#11) (BitVec.ofNat 52 m) := by
  have least := canonical.least
  have below := canonical.below
  have biased : (q + Format.binary64.exponentBias + Format.binary64.mantissaBitsWithoutImplicit)
      = q + 1075 := by
    show q + 1023 + 52 = q + 1075
    ring
  have size : m.log2 + 1 = Format.binary64.mantissaBits ↔ 2 ^ 52 ≤ m := by
    show m.log2 + 1 = 53 ↔ _
    rw [← Nat.le_log2 positive.ne']
    have := (Nat.log2_lt positive.ne').mpr below
    omega
  rw [UnpackedFloat.pack, biased]
  rw [if_neg (show ¬ 2 ^ Format.binary64.exponentBits ≤ (q + 1075).toNat + 1 by
    show ¬ 2 ^ 11 ≤ _
    omega)]
  by_cases large : 2 ^ 52 ≤ m
  · rw [if_pos (size.mpr large), if_pos large]
  · rw [if_neg (mt size.mp large), if_neg large]

theorem bits_of_canonical (canonical : Canonical m q) (finite : q ≤ 971) (positive : 0 < m)
    (sign : Sign) :
    (Float.ofModel (.pack (.finite sign m q positive))).toBits.toNat =
      sign.toBitVec.toNat * 2 ^ 63 +
        (if 2 ^ 52 ≤ m then (q + 1075).toNat * 2 ^ 52 else 0) + m % 2 ^ 52 := by
  have least := canonical.least
  show (UnpackedFloat.pack Format.binary64 (.finite sign m q positive)).toNat = _
  rw [pack_finite canonical finite, toNat_packComponents, BitVec.toNat_ofNat]
  split
  · rw [BitVec.toNat_ofNat, Nat.mod_eq_of_lt (by omega : (q + 1075).toNat < 2 ^ 11)]
  · rfl

/-- A canonical mantissa is read out of the bits that it is packed into. -/
theorem ofFloat_pack (canonical : Canonical m q) (finite : q ≤ 971) (positive : 0 < m)
    (sign : Sign) :
    Binary.ofFloat (.ofModel (.pack (.finite sign m q positive))) =
      .finite (sign == .negative) m q := by
  have least := canonical.least
  have below := canonical.below
  have normal := canonical.normal
  have bits := bits_of_canonical canonical finite positive sign
  have signBit : (sign == .negative) = true ∧ sign.toBitVec.toNat = 1 ∨
      (sign == .negative) = false ∧ sign.toBitVec.toNat = 0 := by
    cases sign
    · exact .inl ⟨rfl, rfl⟩
    · exact .inr ⟨rfl, rfl⟩
  unfold Binary.ofFloat
  generalize (Float.ofModel (.pack (.finite sign m q positive))).toBits.toNat = b at bits
  have negative : (b / 0x8000000000000000 == 1) = (sign == .negative) := by
    rcases signBit with ⟨same, bit⟩ | ⟨same, bit⟩ <;> rw [same] <;>
      simp only [beq_iff_eq, beq_eq_false_iff_ne, ne_eq] <;> split at bits <;> omega
  by_cases large : 2 ^ 52 ≤ m
  · rw [if_pos large] at bits
    have exponent : b / 0x10000000000000 % 0x800 = (q + 1075).toNat := by omega
    have fraction : b % 0x10000000000000 = m - 2 ^ 52 := by omega
    simp only [negative, exponent, fraction]
    rw [if_neg (by omega), if_neg (by omega)]
    congr 1 <;> omega
  · rw [if_neg large] at bits
    have exponent : b / 0x10000000000000 % 0x800 = 0 := by omega
    have fraction : b % 0x10000000000000 = m := by omega
    simp only [negative, exponent, fraction]
    rw [if_neg (by omega), if_pos trivial]
    congr 1
    omega

theorem unpackSign_packComponents (sign : Sign) (exponent : BitVec 11) (fraction : BitVec 52) :
    unpackSign (packComponents Format.binary64 sign exponent fraction) = sign.toBitVec := by
  refine BitVec.eq_of_toNat_eq ?_
  have bits := toNat_packComponents sign exponent fraction
  have short := exponent.isLt
  have small := fraction.isLt
  have single := sign.toBitVec.isLt
  unfold unpackSign
  rw [BitVec.toNat_cast, BitVec.extractLsb_toNat, bits, Nat.shiftRight_eq_div_pow]
  show _ / 2 ^ 63 % 2 ^ 1 = _
  omega

/-- The exponent of an ordinary double as a field. -/
theorem toNat_exponentField (least : -1074 ≤ q) (finite : q ≤ 971) :
    (BitVec.ofNat 11 (q + 1075).toNat).toNat = (q + 1075).toNat := by
  rw [BitVec.toNat_ofNat, Nat.mod_eq_of_lt (by omega)]

/-- The field of an exponent is neither all zeros nor all ones, which have meanings of their own. -/
theorem exponentField_ne (least : -1074 ≤ q) (finite : q ≤ 971) :
    BitVec.ofNat 11 (q + 1075).toNat ≠ 0#11 ∧ BitVec.ofNat 11 (q + 1075).toNat ≠ -1#11 := by
  have exponent := toNat_exponentField least finite
  constructor <;> intro same <;> rw [same] at exponent
  · change 0 = _ at exponent
    omega
  · change 2047 = _ at exponent
    omega

/-- A mantissa of full length is its fraction behind the leading one. -/
theorem toNat_leadingOne (large : 2 ^ 52 ≤ m) (below : m < 2 ^ 53) :
    (1#1 ++ BitVec.ofNat 52 m).toNat = m := by
  rw [BitVec.toNat_append, ← Nat.shiftLeft_add_eq_or_of_lt (BitVec.isLt _), BitVec.toNat_ofNat,
    Nat.shiftLeft_eq]
  show 1 * 2 ^ 52 + m % 2 ^ 52 = m
  omega

/-- A canonical mantissa is unpacked from the bits that it is packed into. -/
theorem unpack_pack (canonical : Canonical m q) (finite : q ≤ 971) (positive : 0 < m)
    (sign : Sign) :
    (Float.Model.pack (.finite sign m q positive)).unpack = .finite sign m q positive := by
  obtain ⟨below, least, normal⟩ := canonical
  show UnpackedFloat.unpack Format.binary64
    (UnpackedFloat.pack Format.binary64 (.finite sign m q positive)) = _
  rw [pack_finite ⟨below, least, normal⟩ finite, UnpackedFloat.unpack]
  simp only [unpackMantissa_packComponents, unpackExponent_packComponents,
    unpackSign_packComponents]
  have signOf : Sign.ofBitVec sign.toBitVec = sign := by cases sign <;> rfl
  have bias : (Format.binary64.exponentBias : ℤ) + (52 : ℕ) = 1075 := rfl
  rw [signOf, bias]
  by_cases large : 2 ^ 52 ≤ m
  · obtain ⟨notZeros, notOnes⟩ := exponentField_ne least finite
    simp only [if_pos large, if_neg notOnes, if_neg notZeros, toNat_exponentField least finite,
      toNat_leadingOne large below]
    congr 1
    omega
  · have fraction : (BitVec.ofNat 52 m).toNat = m := by
      rw [BitVec.toNat_ofNat, Nat.mod_eq_of_lt (by omega)]
    have notZero : BitVec.ofNat 52 m ≠ 0#52 := by
      intro same
      rw [same] at fraction
      exact positive.ne fraction
    have notOnes : ¬ (0#11 = -1#11) := by decide
    simp only [if_neg large, if_neg notOnes, if_pos, dif_neg notZero, fraction]
    congr 1
    show ((0 : ℕ) : ℤ) - 1075 + 1 = q
    omega

end

/-! ### Products and quotients -/

/-- A whole number and the half of the place above it in which a number is stand for the number. -/
theorem stands_inexact {whole : Nat} {half : Ordering} {value : ℚ} (above : (whole : ℚ) < value)
    (below : value < whole + 1) (within : half.Compares (2 * value) (2 * whole + 1)) :
    Stands (.ofMantissaAndAccuracy whole (.inexact half)) value := by
  cases half with
  | lt =>
    change 2 * value < 2 * whole + 1 at within
    have halves_eq : (halves (.ofMantissaAndAccuracy whole (.inexact .lt)) : ℚ) = 2 * whole :=
      halves_of_false rfl
    refine ⟨?_, ?_, ?_⟩ <;> rw [halves_eq]
    · linarith
    · exact within
    · exact ⟨fun never => (nomatch never), fun same => by linarith⟩
  | eq =>
    change 2 * value = 2 * whole + 1 at within
    have halves_eq : (halves (.ofMantissaAndAccuracy whole (.inexact .eq)) : ℚ) = 2 * whole + 1 :=
      halves_of_true rfl
    refine ⟨?_, ?_, ?_⟩ <;> rw [halves_eq]
    · exact within.ge
    · linarith
    · exact ⟨fun _ => within, fun _ => rfl⟩
  | gt =>
    change 2 * whole + 1 < 2 * value at within
    have halves_eq : (halves (.ofMantissaAndAccuracy whole (.inexact .gt)) : ℚ) = 2 * whole + 1 :=
      halves_of_true rfl
    refine ⟨?_, ?_, ?_⟩ <;> rw [halves_eq]
    · exact within.le
    · linarith
    · exact ⟨fun never => (nomatch never), fun same => by linarith⟩

/-- A quotient and what is left of the division stand for the fraction. -/
theorem stands_quotient (num : Nat) {den : Nat} (positive : 0 < den) :
    Stands (.ofMantissaAndAccuracy (num / den) (accuracyOfFraction (num % den) den))
      ((num : ℚ) / den) := by
  have d : (0 : ℚ) < den := by exact_mod_cast positive
  have small : ((num % den : ℕ) : ℚ) < den := by exact_mod_cast Nat.mod_lt num positive
  have parts : (num : ℚ) = den * (num / den : ℕ) + (num % den : ℕ) := by
    exact_mod_cast (Nat.div_add_mod num den).symm
  generalize num / den = whole at parts ⊢
  generalize num % den = rest at small parts ⊢
  have value : (num : ℚ) / den = whole + rest / den := by
    rw [parts, add_div, mul_div_cancel_left₀ _ d.ne']
  rw [value]
  unfold accuracyOfFraction
  split
  · rename_i none
    rw [none, Nat.cast_zero, zero_div, add_zero]
    exact stands_exact whole
  · rename_i some
    have more : (0 : ℚ) < rest / den :=
      div_pos (by exact_mod_cast Nat.pos_of_ne_zero some) d
    have less : (rest : ℚ) / den < 1 := (div_lt_one d).mpr small
    refine stands_inexact (by linarith) (by linarith) ?_
    have double : 2 * ((rest : ℚ) / den) = (2 * rest : ℕ) / den := by
      push_cast
      ring
    rw [mul_add, double]
    cases half : compare (2 * rest) den with
    | lt =>
      have first : ((2 * rest : ℕ) : ℚ) / den < 1 :=
        (div_lt_one d).mpr (by exact_mod_cast Nat.compare_eq_lt.mp half)
      exact add_lt_add_right first _
    | eq =>
      have middle : ((2 * rest : ℕ) : ℚ) / den = 1 :=
        (div_eq_one_iff_eq d.ne').mpr (by exact_mod_cast Nat.compare_eq_eq.mp half)
      exact congrArg (2 * (whole : ℚ) + ·) middle
    | gt =>
      have second : 1 < ((2 * rest : ℕ) : ℚ) / den :=
        (one_lt_div d).mpr (by exact_mod_cast Nat.compare_eq_gt.mp half)
      exact add_lt_add_right second _

section

variable {m : Nat} {q : Int}

/-- The product of two doubles is the double that it rounds to. -/
theorem mul_finite (canonical : Canonical m q) (positive : 0 < m) {m₁ m₂ : Nat} {q₁ q₂ : Int}
    (positive₁ : 0 < m₁) (positive₂ : 0 < m₂) (wide : 2 ^ 52 ≤ m₁ * m₂)
    (rounds : Rounds m q (m₁ * m₂ * 2 ^ (q₁ + q₂))) :
    UnpackedFloat.mul Format.binary64 (.finite .positive m₁ q₁ positive₁)
      (.finite .positive m₂ q₂ positive₂) = .finite .positive m q positive := by
  rw [← Nat.cast_mul] at rounds
  exact roundWithAccuracy_eq canonical positive (stands_exact _) (.inl wide) rounds .positive

/-- The quotient of two doubles is the double that it rounds to. -/
theorem div_finite (canonical : Canonical m q) (positive : 0 < m) {m₁ m₂ : Nat} {q₁ q₂ : Int}
    (positive₁ : 0 < m₁) (positive₂ : 0 < m₂)
    (rounds : Rounds m q (m₁ / m₂ * 2 ^ (q₁ - q₂))) :
    UnpackedFloat.div Format.binary64 (.finite .positive m₁ q₁ positive₁)
      (.finite .positive m₂ q₂ positive₂) = .finite .positive m q positive := by
  let exponent := min (q₁ - q₂) (max ((m₁.log2 : ℤ) + q₁ - (m₂.log2 + q₂) - 53) (-1074))
  let places := (q₁ - q₂ - exponent).toNat
  have core : divCore Format.binary64 m₁ q₁ m₂ q₂ = ((m₁ <<< places) / m₂, exponent,
      accuracyOfFraction ((m₁ <<< places) % m₂) m₂) := by
    have target : Format.binary64.targetExponent
        (Float.Model.totalExponent m₁ q₁ - Float.Model.totalExponent m₂ q₂) =
        max ((m₁.log2 : ℤ) + q₁ - (m₂.log2 + q₂) - 53) (-1074) := by
      simp only [Format.targetExponent, Float.Model.totalExponent, Format.mantissaBits,
        Format.minExponent]
      norm_num
      omega
    rw [divCore, target]
  have shifted : q₁ - q₂ = exponent + places := by omega
  have wide : 2 ^ 52 ≤ (m₁ <<< places) / m₂ ∨ exponent ≤ -1074 := by
    by_cases bottom : exponent ≤ -1074
    · exact .inr bottom
    · left
      have enough : 53 + m₂.log2 ≤ m₁.log2 + places := by omega
      rw [Nat.le_div_iff_mul_le positive₂, Nat.shiftLeft_eq]
      calc 2 ^ 52 * m₂ ≤ 2 ^ 52 * 2 ^ (m₂.log2 + 1) :=
            Nat.mul_le_mul_left _ Nat.lt_log2_self.le
        _ = 2 ^ (53 + m₂.log2) := by rw [← pow_add]; congr 1; omega
        _ ≤ 2 ^ (m₁.log2 + places) := Nat.pow_le_pow_right (by norm_num) enough
        _ = 2 ^ m₁.log2 * 2 ^ places := pow_add _ _ _
        _ ≤ m₁ * 2 ^ places := Nat.mul_le_mul_right _ (Nat.log2_self_le positive₁.ne')
  have value : (m₁ : ℚ) / m₂ * 2 ^ (q₁ - q₂) = ((m₁ <<< places : ℕ) : ℚ) / m₂ * 2 ^ exponent := by
    rw [shifted, zpow_add₀ (by norm_num), zpow_natCast, Nat.shiftLeft_eq]
    push_cast
    ring
  rw [value] at rounds
  rw [UnpackedFloat.div, core]
  exact roundWithAccuracy_eq canonical positive (stands_quotient _ positive₂) wide rounds .positive

end

end FieldResolver.Decimal
