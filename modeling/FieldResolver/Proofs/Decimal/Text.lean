/-
**The text of a number determines it.**

A decimal text is read as the number that it writes: the digits around the point, shifted by the
exponent. The text of a double is read as a number that rounds to it, so different doubles have
different texts, and none of them is the text of a whole number.

* `readValue`: the number that a decimal text writes;
* `readValue_text`: the text of digits writes the number that they stand for;
* `intChars_injective`, `chars_injective`: the texts of whole numbers and of doubles determine them;
* `intChars_ne_chars`: no double has the text of a whole number;
* `nat?_intText`: a natural number is read back from its text.
-/

import FieldResolver.Decimal.Layout
import FieldResolver.Decimal.Reading
import FieldResolver.Proofs.Decimal.Rounding
import Mathlib.Data.List.TakeWhile

namespace FieldResolver.Decimal

/-! ### Digits -/

/-- The number that digits write. -/
def numeral (digits : List Char) : Nat := Nat.ofDigitChars 10 digits 0

/-- Whether all characters of a text are digits. -/
def AllDigits (text : List Char) : Prop := ∀ c ∈ text, c.isDigit = true

theorem allDigits_natDigits (n : Nat) : AllDigits (natDigits n) :=
  fun _ member => Nat.isDigit_of_mem_toDigits (by norm_num) (by norm_num) member

theorem AllDigits.append {first second : List Char} (left : AllDigits first)
    (right : AllDigits second) : AllDigits (first ++ second) :=
  fun c member => (List.mem_append.mp member).elim (left c) (right c)

theorem allDigits_zeros (count : Nat) : AllDigits (List.replicate count '0') := by
  intro c member
  rw [List.eq_of_mem_replicate member]
  rfl

theorem AllDigits.of_subset {text part : List Char} (digits : AllDigits text)
    (within : part ⊆ text) : AllDigits part :=
  fun c member => digits c (within member)

/-- A digit is none of the other characters of a number. -/
theorem AllDigits.ne {text : List Char} (digits : AllDigits text) {other : Char}
    (noDigit : other.isDigit = false) {c : Char} (member : c ∈ text) : c ≠ other := by
  rintro rfl
  rw [digits c member] at noDigit
  cases noDigit

/-- The digits of a number write it. -/
theorem numeral_natDigits (n : Nat) : numeral (natDigits n) = n := Nat.ofDigitChars_ten_toDigits

/-- Zeros in front of digits count for nothing. -/
theorem numeral_zeros_append (count : Nat) (digits : List Char) :
    numeral (List.replicate count '0' ++ digits) = numeral digits := by
  rw [numeral, Nat.ofDigitChars_append, Nat.ofDigitChars_replicate_zero, Nat.mul_zero]
  rfl

/-- Zeros behind digits multiply by powers of ten. -/
theorem numeral_append_zeros (digits : List Char) (count : Nat) :
    numeral (digits ++ List.replicate count '0') = numeral digits * 10 ^ count := by
  rw [numeral, Nat.ofDigitChars_append, Nat.ofDigitChars_replicate_zero, Nat.mul_comm]
  rfl

/-- The number that digits with the position of the point stand for. -/
def Digits.value (shape : Digits) : ℚ :=
  numeral shape.digits * 10 ^ (shape.point - shape.digits.length)

/-- Digits without zeros at the end, and the zeros. -/
theorem stripped_append (digits : List Char) :
    ∃ count,
      digits = (digits.reverse.dropWhile (· == '0')).reverse ++ List.replicate count '0' := by
  refine ⟨(digits.reverse.takeWhile (· == '0')).length, ?_⟩
  have zeros : digits.reverse.takeWhile (· == '0') =
      List.replicate (digits.reverse.takeWhile (· == '0')).length '0' := by
    refine List.eq_replicate_of_mem fun c member => ?_
    have zero := List.mem_takeWhile_imp (p := (· == '0')) member
    exact eq_of_beq zero
  have parts := congrArg List.reverse
    (List.takeWhile_append_dropWhile (p := (· == '0')) (l := digits.reverse))
  rw [List.reverse_append, List.reverse_reverse, zeros, List.reverse_replicate] at parts
  exact parts.symm

theorem Digits.allDigits_ofNat (n : Nat) (grid : Int) : AllDigits (Digits.ofNat n grid).digits := by
  obtain ⟨count, parts⟩ := stripped_append (natDigits n)
  refine (allDigits_natDigits n).of_subset ?_
  rw [parts]
  exact List.subset_append_left _ _

/-- The digits of a decimal stand for it. -/
theorem Digits.value_ofNat (n : Nat) (grid : Int) :
    (Digits.ofNat n grid).value = n * 10 ^ grid := by
  obtain ⟨count, parts⟩ := stripped_append (natDigits n)
  have whole := numeral_natDigits n
  have length := congrArg List.length parts
  rw [parts, numeral_append_zeros] at whole
  rw [List.length_append, List.length_replicate] at length
  show (numeral ((natDigits n).reverse.dropWhile (· == '0')).reverse : ℚ) *
    10 ^ (((natDigits n).length : ℤ) + grid -
      (((natDigits n).reverse.dropWhile (· == '0')).reverse.length : ℤ)) = _
  generalize ((natDigits n).reverse.dropWhile (· == '0')).reverse = digits at whole length ⊢
  rw [length, ← whole]
  push_cast
  rw [show (digits.length : ℤ) + count + grid - digits.length = count + grid by ring,
    zpow_add₀ (by norm_num), zpow_natCast]
  ring

/-! ### Texts -/

/-- The number that a text without an exponent writes. -/
def readMantissa (text : List Char) : ℚ :=
  let whole := text.takeWhile (· != '.')
  let fraction := (text.dropWhile (· != '.')).drop 1
  numeral (whole ++ fraction) * 10 ^ (-(fraction.length : ℤ))

/-- The exponent that a text with a sign writes. -/
def readExponent : List Char → Int
  | '-' :: digits => -numeral digits
  | _ :: digits => numeral digits
  | [] => 0

/-- The number that a decimal text writes. -/
def readValue (text : List Char) : ℚ :=
  readMantissa (text.takeWhile (· != 'e')) * 10 ^ readExponent ((text.dropWhile (· != 'e')).drop 1)

/-- A text is cut at the first character of a kind. -/
theorem cut_at {first : List Char} {mark : Char} (apart : ∀ c ∈ first, c ≠ mark)
    (rest : List Char) :
    (first ++ mark :: rest).takeWhile (· != mark) = first ∧
      (first ++ mark :: rest).dropWhile (· != mark) = mark :: rest := by
  have passes : ∀ c ∈ first, (c != mark) = true := fun c member => bne_iff_ne.mpr (apart c member)
  rw [List.takeWhile_append_of_pos passes, List.dropWhile_append_of_pos passes]
  simp

/-- A text without characters of a kind is not cut. -/
theorem uncut {text : List Char} {mark : Char} (apart : ∀ c ∈ text, c ≠ mark) :
    text.takeWhile (· != mark) = text ∧ text.dropWhile (· != mark) = [] := by
  have passes : ∀ c ∈ text, (c != mark) = true := fun c member => bne_iff_ne.mpr (apart c member)
  exact ⟨List.takeWhile_eq_self_iff.mpr passes, List.dropWhile_eq_nil_iff.mpr passes⟩

theorem readMantissa_digits {digits : List Char} (all : AllDigits digits) :
    readMantissa digits = numeral digits := by
  have apart : ∀ c ∈ digits, c ≠ '.' := fun _ => all.ne rfl
  obtain ⟨whole, fraction⟩ := uncut apart
  simp [readMantissa, whole, fraction]

theorem readMantissa_point {whole fraction : List Char} (all : AllDigits whole) :
    readMantissa (whole ++ '.' :: fraction) =
      numeral (whole ++ fraction) * 10 ^ (-(fraction.length : ℤ)) := by
  have apart : ∀ c ∈ whole, c ≠ '.' := fun _ => all.ne rfl
  obtain ⟨before, after⟩ := cut_at apart fraction
  simp [readMantissa, before, after]

theorem readValue_of_positional {text : List Char} (apart : ∀ c ∈ text, c ≠ 'e') :
    readValue text = readMantissa text := by
  obtain ⟨whole, none⟩ := uncut apart
  simp [readValue, whole, none, readExponent]

theorem readValue_of_scientific {mantissa exponent : List Char} (apart : ∀ c ∈ mantissa, c ≠ 'e') :
    readValue (mantissa ++ 'e' :: exponent) =
      readMantissa mantissa * 10 ^ readExponent exponent := by
  obtain ⟨before, after⟩ := cut_at apart exponent
  simp [readValue, before, after]

/-- A text of digits around a point has no exponent. -/
theorem readValue_point {whole fraction : List Char} (all : AllDigits whole)
    (all' : AllDigits fraction) : readValue (whole ++ '.' :: fraction) =
      numeral (whole ++ fraction) * 10 ^ (-(fraction.length : ℤ)) := by
  rw [readValue_of_positional, readMantissa_point all]
  intro c member
  rcases List.mem_append.mp member with before | after
  · exact all.ne rfl before
  · rcases List.mem_cons.mp after with rfl | behind
    · decide
    · exact all'.ne rfl behind

namespace Layout

/-- Digits without an exponent write the number that they stand for. -/
theorem readValue_positionalText {digits : List Char} (all : AllDigits digits) (point : Int) :
    readValue (json.positionalText digits point) = (Digits.mk digits point).value := by
  show _ = (numeral digits : ℚ) * 10 ^ (point - (digits.length : ℤ))
  rw [positionalText]
  split
  · have shape : '0' :: '.' :: (List.replicate (-point).toNat '0' ++ digits) =
        List.replicate 1 '0' ++ '.' :: (List.replicate (-point).toNat '0' ++ digits) := rfl
    rw [shape, readValue_point (allDigits_zeros 1) ((allDigits_zeros _).append all),
      numeral_zeros_append, numeral_zeros_append, List.length_append, List.length_replicate]
    congr 2
    push_cast
    omega
  · split
    · have shape : digits ++ List.replicate (point.toNat - digits.length) '0' ++
          (if json.keepsZero point then ['.', '0'] else []) =
          (digits ++ List.replicate (point.toNat - digits.length) '0') ++
            '.' :: List.replicate 1 '0' := rfl
      rw [shape, readValue_point (all.append (allDigits_zeros _)) (allDigits_zeros 1),
        numeral_append_zeros, numeral_append_zeros, List.length_replicate]
      have cancel : (10 : ℚ) ^ 1 * 10 ^ (-((1 : ℕ) : ℤ)) = 1 := by norm_num
      rw [Nat.cast_mul, Nat.cast_mul, Nat.cast_pow, Nat.cast_pow, Nat.cast_ofNat, mul_assoc, cancel,
        mul_one, ← zpow_natCast]
      congr 2
      omega
    · rw [readValue_point (all.of_subset (List.take_subset _ _))
        (all.of_subset (List.drop_subset _ _)), List.take_append_drop, List.length_drop]
      congr 2
      omega

/-- Digits with an exponent write the number that they stand for. -/
theorem readValue_scientificText {digits : List Char} (all : AllDigits digits) (point : Int) :
    readValue (scientificText digits point) = (Digits.mk digits point).value := by
  show _ = (numeral digits : ℚ) * 10 ^ (point - (digits.length : ℤ))
  have exponent : readExponent
      ((if point - 1 < 0 then '-' else '+') :: natDigits (point - 1).natAbs) = point - 1 := by
    split
    · show -(numeral (natDigits (point - 1).natAbs) : ℤ) = _
      rw [numeral_natDigits]
      omega
    · show (numeral (natDigits (point - 1).natAbs) : ℤ) = _
      rw [numeral_natDigits]
      omega
  have shifted : ∀ mantissa : List Char, (∀ c ∈ mantissa, c ≠ 'e') → readValue (mantissa ++
      'e' :: (if point - 1 < 0 then '-' else '+') :: natDigits (point - 1).natAbs) =
        readMantissa mantissa * 10 ^ (point - 1) := by
    intro mantissa apart
    rw [readValue_of_scientific apart, exponent]
  match digits, all with
  | [], _ =>
    have zero : numeral (List.replicate 1 '0') = 0 := rfl
    show readValue (List.replicate 1 '0' ++ _) = (0 : ℕ) * _
    rw [shifted _ (fun c => (allDigits_zeros 1).ne rfl), readMantissa_digits (allDigits_zeros 1),
      zero, Nat.cast_zero, zero_mul, zero_mul]
  | [d], all =>
    show readValue ([d] ++ _) = _
    rw [shifted [d] (fun c => all.ne rfl), readMantissa_digits all]
    rfl
  | d :: next :: rest, all =>
    have whole : AllDigits [d] := all.of_subset (by simp)
    have fraction : AllDigits (next :: rest) := all.of_subset (by simp)
    show readValue (([d] ++ '.' :: (next :: rest)) ++ _) = _
    rw [shifted, readMantissa_point whole]
    · rw [mul_assoc, ← zpow_add₀ (by norm_num)]
      congr 2
      simp
      omega
    · intro c member
      rcases List.mem_cons.mp member with rfl | behind
      · exact whole.ne rfl List.mem_cons_self
      · rcases List.mem_cons.mp behind with rfl | after
        · decide
        · exact fraction.ne rfl after

/-- **The text of digits writes the number that they stand for.** -/
theorem readValue_text {shape : Digits} (all : AllDigits shape.digits) :
    readValue (json.text shape) = shape.value := by
  rw [text]
  split
  · exact readValue_positionalText all _
  · exact readValue_scientificText all _

end Layout

/-- The text of the size of a double. -/
def sizeText (mantissa : Nat) (exponent : Int) : List Char :=
  if mantissa = 0 then ['0', '.', '0'] else Layout.json.text (shortest mantissa exponent)

/-- The text of an ordinary double is that of its size with a sign. -/
theorem chars_of_finite {x : Float} {negative : Bool} {mantissa : Nat} {exponent : Int}
    (parts : Binary.ofFloat x = .finite negative mantissa exponent) :
    Layout.json.chars x =
      if negative then '-' :: sizeText mantissa exponent else sizeText mantissa exponent := by
  rw [Layout.chars, parts]
  rfl

/-- The text of a size writes a number that rounds to it. -/
theorem readValue_sizeText {mantissa : Nat} {exponent : Int}
    (canonical : Canonical mantissa exponent) :
    mantissa = 0 ∧ readValue (sizeText mantissa exponent) = 0 ∨
      0 < mantissa ∧ Rounds mantissa exponent (readValue (sizeText mantissa exponent)) := by
  rcases Nat.eq_zero_or_pos mantissa with rfl | positive
  · have shape : ['0', '.', '0'] = List.replicate 1 '0' ++ '.' :: List.replicate 1 '0' := rfl
    have zero : numeral (List.replicate 1 '0' ++ List.replicate 1 '0') = 0 := rfl
    refine .inl ⟨rfl, ?_⟩
    rw [sizeText, if_pos rfl, shape, readValue_point (allDigits_zeros 1) (allDigits_zeros 1), zero,
      Nat.cast_zero, zero_mul]
  · obtain ⟨n, grid, digits, rounds⟩ := shortest_rounds canonical positive
    refine .inr ⟨positive, ?_⟩
    rw [sizeText, if_neg positive.ne', digits,
      Layout.readValue_text (Digits.allDigits_ofNat n grid), Digits.value_ofNat]
    exact rounds

/-- What rounds to a mantissa above zero is above zero. -/
theorem Rounds.pos {mantissa : Nat} {exponent : Int} {value : ℚ} (positive : 0 < mantissa)
    (rounds : Rounds mantissa exponent value) : 0 < value := by
  refine lt_of_lt_of_le (mul_pos ?_ (zpow_pos (by norm_num) _)) rounds.low
  have short : reach mantissa exponent ≤ 2 := by
    rw [reach]
    split <;> norm_num
  have above : (0 : ℤ) < 4 * mantissa - reach mantissa exponent := by omega
  exact_mod_cast above

/-- Texts of sizes determine them. -/
theorem sizeText_injective {m m' : Nat} {q q' : Int} (canonical : Canonical m q)
    (canonical' : Canonical m' q') (same : sizeText m q = sizeText m' q') : m = m' ∧ q = q' := by
  rcases readValue_sizeText canonical with ⟨rfl, zero⟩ | ⟨positive, rounds⟩ <;>
    rcases readValue_sizeText canonical' with ⟨rfl, zero'⟩ | ⟨positive', rounds'⟩
  · have least := canonical.normal
    have least' := canonical'.normal
    exact ⟨rfl, by omega⟩
  · rw [← same, zero] at rounds'
    exact absurd (rounds'.pos positive') (lt_irrefl 0)
  · rw [same, zero'] at rounds
    exact absurd (rounds.pos positive) (lt_irrefl 0)
  · rw [← same] at rounds'
    exact rounds.unique canonical canonical' rounds'

/-! ### The characters of numbers -/

/-- Whether a character can stand in the text of a number. -/
def isNumeric (c : Char) : Bool := c.isDigit || c == '.' || c == 'e' || c == '+' || c == '-'

theorem AllDigits.isNumeric {text : List Char} (digits : AllDigits text) :
    ∀ c ∈ text, isNumeric c = true := by
  intro c member
  simp [Decimal.isNumeric, digits c member]

/-- Whether a text has digits, then a point or an exponent, and then characters of numbers. -/
def Fractional (text : List Char) : Prop :=
  ∃ whole mark rest, text = whole ++ mark :: rest ∧ whole ≠ [] ∧ AllDigits whole ∧
    (mark = '.' ∨ mark = 'e') ∧ ∀ c ∈ rest, isNumeric c = true

theorem Layout.fractional_positionalText {digits : List Char} (all : AllDigits digits)
    (point : Int) : Fractional (json.positionalText digits point) := by
  rw [positionalText]
  split
  · refine ⟨['0'], '.', _, rfl, by simp, allDigits_zeros 1, .inl rfl, ?_⟩
    exact ((allDigits_zeros _).append all).isNumeric
  · split
    · refine ⟨digits ++ List.replicate (point.toNat - digits.length) '0', '.', ['0'], rfl, ?_,
        all.append (allDigits_zeros _), .inl rfl, (allDigits_zeros 1).isNumeric⟩
      intro none
      have length := congrArg List.length none
      rw [List.length_append, List.length_replicate, List.length_nil] at length
      omega
    · refine ⟨digits.take point.toNat, '.', _, rfl, ?_, all.of_subset (List.take_subset _ _),
        .inl rfl, (all.of_subset (List.drop_subset _ _)).isNumeric⟩
      intro none
      have length := congrArg List.length none
      rw [List.length_take, List.length_nil] at length
      omega

theorem Layout.fractional_scientificText {digits : List Char} (all : AllDigits digits)
    (point : Int) : Fractional (scientificText digits point) := by
  have exponent : ∀ c ∈ (if point - 1 < 0 then '-' else '+') :: natDigits (point - 1).natAbs,
      isNumeric c = true := by
    refine List.forall_mem_cons.mpr ⟨?_, (allDigits_natDigits _).isNumeric⟩
    split <;> rfl
  match digits, all with
  | [], _ => exact ⟨['0'], 'e', _, rfl, by simp, allDigits_zeros 1, .inr rfl, exponent⟩
  | [d], all => exact ⟨[d], 'e', _, rfl, by simp, all, .inr rfl, exponent⟩
  | d :: next :: rest, all =>
    refine ⟨[d], '.', _, rfl, by simp, all.of_subset (by simp), .inl rfl, ?_⟩
    have fraction : AllDigits (next :: rest) := all.of_subset (by simp)
    intro c member
    rcases List.mem_append.mp (show c ∈ (next :: rest) ++ 'e' :: _ from member) with before | after
    · exact fraction.isNumeric c before
    · rcases List.mem_cons.mp after with rfl | behind
      · rfl
      · exact exponent c behind

theorem fractional_sizeText {m : Nat} {q : Int} (canonical : Canonical m q) :
    Fractional (sizeText m q) := by
  rw [sizeText]
  split
  · exact ⟨['0'], '.', ['0'], rfl, by simp, allDigits_zeros 1, .inl rfl,
      (allDigits_zeros 1).isNumeric⟩
  · rename_i nonzero
    obtain ⟨n, grid, digits, _⟩ := shortest_rounds canonical (Nat.pos_of_ne_zero nonzero)
    have all := Digits.allDigits_ofNat n grid
    rw [digits, Layout.text]
    split
    · exact Layout.fractional_positionalText all _
    · exact Layout.fractional_scientificText all _

section

variable {text : List Char}

/-- A fractional text starts with a digit. -/
theorem Fractional.head (fractional : Fractional text) :
    ∃ first rest, text = first :: rest ∧ first.isDigit = true := by
  obtain ⟨whole, mark, rest, rfl, nonempty, digits, _⟩ := fractional
  cases whole with
  | nil => exact absurd rfl nonempty
  | cons first others => exact ⟨first, _, rfl, digits first List.mem_cons_self⟩

theorem Fractional.isNumeric (fractional : Fractional text) : ∀ c ∈ text, isNumeric c = true := by
  obtain ⟨whole, mark, rest, rfl, _, digits, kind, numeric⟩ := fractional
  intro c member
  rcases List.mem_append.mp member with before | after
  · exact digits.isNumeric c before
  · rcases List.mem_cons.mp after with rfl | behind
    · rcases kind with rfl | rfl <;> rfl
    · exact numeric c behind

/-- A fractional text does not consist of digits only. -/
theorem Fractional.not_allDigits (fractional : Fractional text) : ¬ AllDigits text := by
  obtain ⟨whole, mark, rest, rfl, _, _, kind, _⟩ := fractional
  intro digits
  have mark := digits mark (by simp)
  rcases kind with rfl | rfl <;> cases mark

end

/-- A sign in front of a text that starts with a digit is told apart from it. -/
theorem signed_injective {negative negative' : Bool} {text text' : List Char}
    (head : ∃ first rest, text = first :: rest ∧ first.isDigit = true)
    (head' : ∃ first rest, text' = first :: rest ∧ first.isDigit = true)
    (same : (if negative then '-' :: text else text) = if negative' then '-' :: text' else text') :
    negative = negative' ∧ text = text' := by
  obtain ⟨first, rest, rfl, digit⟩ := head
  obtain ⟨first', rest', rfl, digit'⟩ := head'
  cases negative <;> cases negative'
  · exact ⟨rfl, same⟩
  · cases same
    cases digit
  · cases same
    cases digit'
  · exact ⟨rfl, (List.cons.inj same).2⟩

/-- A text of digits only, with a sign. -/
theorem intChars_eq (n : Int) :
    intChars n = if decide (n < 0) then '-' :: natDigits n.natAbs else natDigits n.natAbs := by
  rw [intChars]
  simp only [decide_eq_true_eq]

theorem head_natDigits (n : Nat) :
    ∃ first rest, natDigits n = first :: rest ∧ first.isDigit = true := by
  have digits := allDigits_natDigits n
  have some := length_natDigits_pos n
  cases text : natDigits n with
  | nil =>
    rw [text] at some
    exact absurd some (lt_irrefl 0)
  | cons first rest =>
    rw [text] at digits
    exact ⟨first, rest, rfl, digits first List.mem_cons_self⟩

/-- **The text of a whole number determines it.** -/
theorem intChars_injective {a b : Int} (same : intChars a = intChars b) : a = b := by
  rw [intChars_eq, intChars_eq] at same
  obtain ⟨sign, digits⟩ := signed_injective (head_natDigits _) (head_natDigits _) same
  have size := congrArg numeral digits
  rw [numeral_natDigits, numeral_natDigits] at size
  rw [decide_eq_decide] at sign
  omega

/-- The parts of an ordinary double. -/
theorem exists_parts {x : Float} (finite : isFinite x = true) :
    ∃ negative mantissa exponent, Binary.ofFloat x = .finite negative mantissa exponent := by
  rw [isFinite] at finite
  split at finite
  · exact ⟨_, _, _, ‹_›⟩
  · cases finite

/-- **The text of an ordinary double determines it.** -/
theorem chars_injective {x y : Float} (finite : isFinite x = true) (finite' : isFinite y = true)
    (same : Layout.json.chars x = Layout.json.chars y) : x = y := by
  obtain ⟨negative, m, q, parts⟩ := exists_parts finite
  obtain ⟨negative', m', q', parts'⟩ := exists_parts finite'
  have canonical := canonical_of_ofFloat parts
  have canonical' := canonical_of_ofFloat parts'
  rw [chars_of_finite parts, chars_of_finite parts'] at same
  obtain ⟨rfl, size⟩ := signed_injective (fractional_sizeText canonical).head
    (fractional_sizeText canonical').head same
  obtain ⟨rfl, rfl⟩ := sizeText_injective canonical canonical' size
  exact ofFloat_injective finite (parts.trans parts'.symm)

/-- **No ordinary double has the text of a whole number.** -/
theorem intChars_ne_chars (n : Int) {x : Float} (finite : isFinite x = true) :
    intChars n ≠ Layout.json.chars x := by
  intro same
  obtain ⟨negative, m, q, parts⟩ := exists_parts finite
  have fractional := fractional_sizeText (canonical_of_ofFloat parts)
  rw [intChars_eq, chars_of_finite parts] at same
  obtain ⟨_, digits⟩ := signed_injective (head_natDigits _) fractional.head same
  exact fractional.not_allDigits (digits ▸ allDigits_natDigits _)

/-- The digits that numbers are read from are the decimal ones. -/
theorem isDigit_of_isDigit {c : Char} (digit : c.isDigit = true) : isDigit c = true := by
  simp only [Char.isDigit, Bool.and_eq_true, decide_eq_true_eq] at digit
  exact decide_eq_true digit

/-- **A natural number below `2 ^ 64` is read back from its text.** -/
theorem nat?_intText {n : Nat} (small : n < 2 ^ 64) : nat? (intText (n : Int)).toList = some n := by
  have text : (intText (n : Int)).toList = natDigits n := by
    rw [intText, String.toList_ofList, intChars_eq]
    simp
  obtain ⟨first, rest, head, digit⟩ := head_natDigits n
  have unsigned : first ≠ '+' := by
    rintro rfl
    cases digit
  have all : (natDigits n).all isDigit = true :=
    List.all_eq_true.mpr fun c member => isDigit_of_isDigit (allDigits_natDigits n c member)
  have value : natOfDigits (natDigits n) 0 = n := numeral_natDigits n
  rw [text, nat?]
  · have nonempty : (natDigits n).isEmpty = false := by rw [head, List.isEmpty_cons]
    rw [nonempty, all, value]
    exact if_pos small
  · intro rest same
    rw [head] at same
    exact unsigned (List.cons.inj same).1

end FieldResolver.Decimal
