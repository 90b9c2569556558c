/-
**Numbers are read back from their texts.**

The text of an ordinary double, read digit by digit, is a decimal that rounds to the double, so it
is read as that double. The text of a whole number is read as that number, and no double has such a
text.

* `float?_point`, `float?_scaled`: texts of digits around a point and with an exponent;
* `readAs_sizeText`: what the text of a size is read as;
* `float?_chars`, `float?_plain`: an ordinary double is read back from its text;
* `int?_intChars`, `int?_chars`: whole numbers are, and doubles are told apart from them.
-/

import FieldResolver.Proofs.Decimal.Nearest

namespace FieldResolver.Decimal

open Float.Model (UnpackedFloat)

/-! ### Texts of doubles -/

/-- A text that starts with a digit has no sign. -/
theorem splitSign_of_isDigit {first : Char} {rest : List Char} (digit : first.isDigit = true) :
    splitSign (first :: rest) = (false, first :: rest) := by
  unfold splitSign
  split
  · rename_i same
    cases same
    cases digit
  · rename_i same
    cases same
    cases digit
  · rfl

/-- Lower case leaves digits alone. -/
theorem toLower_of_isDigit {c : Char} (digit : c.isDigit = true) : c.toLower = c := by
  have most : c.toNat ≤ 57 := (Char.isDigit_iff_toNat.mp digit).2
  unfold Char.toLower
  rw [dif_neg]
  rintro ⟨least, -⟩
  have : 65 ≤ c.toNat := least
  omega

/-- A text that starts with a digit is no name. -/
theorem name_ne_of_isDigit {text : List Char}
    (head : ∃ first rest, text = first :: rest ∧ first.isDigit = true) {name : String}
    {letter : Char} {others : List Char} (spelt : name.toList = letter :: others)
    (other : letter.isDigit = false) : String.ofList (text.map Char.toLower) ≠ name := by
  obtain ⟨first, rest, rfl, digit⟩ := head
  rintro rfl
  rw [String.toList_ofList, List.map_cons, toLower_of_isDigit digit] at spelt
  rw [(List.cons.inj spelt).1, other] at digit
  cases digit

/-- Digits are taken up to what is no digit. -/
theorem takeWhile_digits {digits : List Char} (all : AllDigits digits) (rest : List Char)
    (ends : ∀ c ∈ rest.head?, isDigit c = false) :
    (digits ++ rest).takeWhile isDigit = digits ∧ (digits ++ rest).dropWhile isDigit = rest := by
  have passes : ∀ c ∈ digits, isDigit c = true := fun c member => isDigit_of_isDigit (all c member)
  rw [List.takeWhile_append_of_pos passes, List.dropWhile_append_of_pos passes]
  cases rest with
  | nil => simp
  | cons c more =>
    have stops : isDigit c = false := ends c rfl
    simp [stops]

section

variable {text body whole fraction tail : List Char} {negative : Bool} {exponent : Int}

/-- A text that starts with a digit behind its sign is read digit by digit. -/
theorem float?_of_head (sign : splitSign text = (negative, body))
    (head : ∃ first rest, body = first :: rest ∧ first.isDigit = true) :
    float? text =
      let whole := body.takeWhile isDigit
      let rest := body.dropWhile isDigit
      let fraction := match rest with
        | '.' :: more => more.takeWhile isDigit
        | _ => []
      let tail := match rest with
        | '.' :: more => more.dropWhile isDigit
        | _ => rest
      if whole.isEmpty && fraction.isEmpty then none
      else (exponent? tail).map fun exponent =>
        let size := nearest (natOfDigits (whole ++ fraction) 0) (exponent - fraction.length)
        if negative then -size else size := by
  have infinity : String.ofList (body.map Char.toLower) ≠ "inf" := name_ne_of_isDigit head rfl rfl
  have infinity' : String.ofList (body.map Char.toLower) ≠ "infinity" :=
    name_ne_of_isDigit head rfl rfl
  have noNumber : String.ofList (body.map Char.toLower) ≠ "nan" := name_ne_of_isDigit head rfl rfl
  unfold float?
  rw [sign]
  dsimp only
  rw [decide_eq_false infinity, decide_eq_false infinity', Bool.or_self]
  exact (if_neg Bool.false_ne_true).trans (if_neg noNumber)

theorem head_of_digits {digits : List Char} (all : AllDigits digits) (nonempty : digits ≠ []) :
    ∃ first others, digits = first :: others ∧ first.isDigit = true := by
  obtain ⟨first, others, rfl⟩ := List.exists_cons_of_ne_nil nonempty
  exact ⟨first, others, rfl, all first List.mem_cons_self⟩

theorem head_of_append {digits rest : List Char} (all : AllDigits digits) (nonempty : digits ≠ []) :
    ∃ first others, digits ++ rest = first :: others ∧ first.isDigit = true := by
  obtain ⟨first, others, rfl, digit⟩ := head_of_digits all nonempty
  exact ⟨first, others ++ rest, rfl, digit⟩

/-- Digits only. -/
theorem float?_digits (digits : AllDigits whole) (nonempty : whole ≠ [])
    (sign : splitSign text = (negative, whole)) :
    float? text =
      some (if negative then -nearest (numeral whole) 0 else nearest (numeral whole) 0) := by
  obtain ⟨front, back⟩ := takeWhile_digits digits [] nofun
  have some : whole.isEmpty = false := by simpa using nonempty
  rw [List.append_nil] at front back
  rw [float?_of_head sign (head_of_digits digits nonempty)]
  simp only [front, back, some]
  change (exponent? []).map (fun exponent =>
    let size := nearest (numeral (whole ++ [])) (exponent - (0 : ℕ))
    if negative then -size else size) = _
  rw [List.append_nil]
  rfl

/-- Digits around a point, with an exponent or nothing behind them. -/
theorem float?_point (digits : AllDigits whole) (nonempty : whole ≠ []) (more : AllDigits fraction)
    (sign : splitSign text = (negative, whole ++ '.' :: (fraction ++ tail)))
    (ends : ∀ c ∈ tail.head?, isDigit c = false) (read : exponent? tail = some exponent) :
    float? text = some (
      let size := nearest (numeral (whole ++ fraction)) (exponent - fraction.length)
      if negative then -size else size) := by
  obtain ⟨front, back⟩ := takeWhile_digits digits ('.' :: (fraction ++ tail))
    (by rintro c ⟨⟩; decide)
  obtain ⟨front', back'⟩ := takeWhile_digits more tail ends
  have some : whole.isEmpty = false := by simpa using nonempty
  rw [float?_of_head sign (head_of_append digits nonempty)]
  simp only [front, back, front', back', read, some]
  rfl

/-- Digits with an exponent. -/
theorem float?_scaled (digits : AllDigits whole) (nonempty : whole ≠ [])
    (sign : splitSign text = (negative, whole ++ 'e' :: tail))
    (read : exponent? ('e' :: tail) = some exponent) :
    float? text = some (
      let size := nearest (numeral whole) exponent
      if negative then -size else size) := by
  obtain ⟨front, back⟩ := takeWhile_digits digits ('e' :: tail) (by rintro c ⟨⟩; decide)
  have some : whole.isEmpty = false := by simpa using nonempty
  rw [float?_of_head sign (head_of_append digits nonempty)]
  simp only [front, back, some]
  change (exponent? ('e' :: tail)).map (fun exponent =>
    let size := nearest (numeral (whole ++ [])) (exponent - (0 : ℕ))
    if negative then -size else size) = _
  rw [read, List.append_nil, Nat.cast_zero]
  simp only [sub_zero]
  rfl

/-- Whether a text is read as the double nearest to a number, with a sign. -/
def ReadAs (text : List Char) (negative : Bool) (value : ℚ) : Prop :=
  ∃ (n : Nat) (exponent : Int), value = n * 10 ^ exponent ∧
    float? text = some (if negative then -nearest n exponent else nearest n exponent)

/-- Digits are read as the number that they write. -/
theorem readAs_digits (digits : AllDigits whole) (nonempty : whole ≠ [])
    (sign : splitSign text = (negative, whole)) : ReadAs text negative (numeral whole) :=
  ⟨numeral whole, 0, by rw [zpow_zero, mul_one], float?_digits digits nonempty sign⟩

/-- The text of a power of ten is read back. -/
theorem exponent?_scientific (power : Int) :
    exponent? ('e' :: (if power < 0 then '-' else '+') :: natDigits power.natAbs) = some power := by
  have some : (natDigits power.natAbs).isEmpty = false := by
    obtain ⟨first, rest, head, _⟩ := head_natDigits power.natAbs
    rw [head, List.isEmpty_cons]
  have all : (natDigits power.natAbs).all isDigit = true :=
    List.all_eq_true.mpr fun c member => isDigit_of_isDigit (allDigits_natDigits _ c member)
  have value : natOfDigits (natDigits power.natAbs) 0 = power.natAbs := numeral_natDigits _
  have letter : (decide ('e' = 'e') || decide ('e' = 'E')) = true := rfl
  rw [exponent?, if_pos letter]
  by_cases negative : power < 0
  · rw [if_pos negative]
    simp only [splitSign, some, all, value, Bool.not_true, Bool.or_self, Bool.false_eq_true,
      if_false, if_true, Option.some.injEq]
    omega
  · rw [if_neg negative]
    simp only [splitSign, some, all, value, Bool.not_true, Bool.or_self, Bool.false_eq_true,
      if_false, Option.some.injEq]
    omega

/-- Digits around a point are read as the number that they write. -/
theorem readAs_point (digits : AllDigits whole) (nonempty : whole ≠ []) (more : AllDigits fraction)
    (sign : splitSign text = (negative, whole ++ '.' :: fraction)) :
    ReadAs text negative (readValue (whole ++ '.' :: fraction)) := by
  refine ⟨numeral (whole ++ fraction), -(fraction.length : ℤ), readValue_point digits more, ?_⟩
  have plain : splitSign text = (negative, whole ++ '.' :: (fraction ++ [])) := by
    rw [sign, List.append_nil]
  rw [float?_point digits nonempty more plain (by rintro c ⟨⟩) rfl]
  simp only [zero_sub]

theorem positionalText_eq {digits : List Char} (all : AllDigits digits) (point : Int) :
    ∃ whole fraction, Layout.json.positionalText digits point = whole ++ '.' :: fraction ∧
      AllDigits whole ∧ whole ≠ [] ∧ AllDigits fraction := by
  rw [Layout.positionalText]
  split
  · exact ⟨['0'], _, rfl, allDigits_zeros 1, by simp, (allDigits_zeros _).append all⟩
  · split
    · refine ⟨digits ++ List.replicate (point.toNat - digits.length) '0', ['0'], rfl,
        all.append (allDigits_zeros _), ?_, allDigits_zeros 1⟩
      intro none
      have length := congrArg List.length none
      rw [List.length_append, List.length_replicate, List.length_nil] at length
      omega
    · refine ⟨digits.take point.toNat, _, rfl, all.of_subset (List.take_subset _ _), ?_,
        all.of_subset (List.drop_subset _ _)⟩
      intro none
      have length := congrArg List.length none
      rw [List.length_take, List.length_nil] at length
      omega

/-- The power of ten that a signed exponent writes. -/
theorem readExponent_scientific (power : Int) :
    readExponent ((if power < 0 then '-' else '+') :: natDigits power.natAbs) = power := by
  split
  · show -(numeral (natDigits power.natAbs) : ℤ) = _
    rw [numeral_natDigits]
    omega
  · show (numeral (natDigits power.natAbs) : ℤ) = _
    rw [numeral_natDigits]
    omega

theorem readAs_scaled {power : Int} (digits : AllDigits whole) (nonempty : whole ≠ [])
    (shape : body = whole ++ 'e' :: (if power < 0 then '-' else '+') :: natDigits power.natAbs)
    (sign : splitSign text = (negative, body)) : ReadAs text negative (readValue body) := by
  subst shape
  refine ⟨numeral whole, power, ?_, float?_scaled digits nonempty sign (exponent?_scientific power)⟩
  rw [readValue_of_scientific (fun c => digits.ne rfl), readMantissa_digits digits,
    readExponent_scientific]

theorem readAs_point_scaled {power : Int} (digits : AllDigits whole) (nonempty : whole ≠ [])
    (more : AllDigits fraction)
    (shape : body = whole ++ '.' :: (fraction ++
      'e' :: (if power < 0 then '-' else '+') :: natDigits power.natAbs))
    (sign : splitSign text = (negative, body)) : ReadAs text negative (readValue body) := by
  subst shape
  refine ⟨numeral (whole ++ fraction), power - fraction.length, ?_,
    float?_point digits nonempty more sign (by rintro c ⟨⟩; decide) (exponent?_scientific power)⟩
  have apart : ∀ c ∈ whole ++ '.' :: fraction, c ≠ 'e' := by
    intro c member
    rcases List.mem_append.mp member with before | behind
    · exact digits.ne rfl before
    · rcases List.mem_cons.mp behind with rfl | after
      · decide
      · exact more.ne rfl after
  have shape : whole ++ '.' :: (fraction ++
      'e' :: (if power < 0 then '-' else '+') :: natDigits power.natAbs) =
      (whole ++ '.' :: fraction) ++
        'e' :: (if power < 0 then '-' else '+') :: natDigits power.natAbs := by simp
  rw [shape, readValue_of_scientific apart, readMantissa_point digits, readExponent_scientific,
    mul_assoc, ← zpow_add₀ (by norm_num)]
  congr 2
  ring

/-- The text of digits is read as the number that it writes. -/
theorem readAs_text {shape : Digits} (all : AllDigits shape.digits)
    (sign : splitSign text = (negative, Layout.json.text shape)) :
    ReadAs text negative (readValue (Layout.json.text shape)) := by
  unfold Layout.text at sign ⊢
  by_cases positional : Layout.json.positional shape.point = true
  · rw [if_pos positional] at sign ⊢
    obtain ⟨whole, fraction, same, digits, nonempty, more⟩ := positionalText_eq all shape.point
    rw [same] at sign ⊢
    exact readAs_point digits nonempty more sign
  · rw [if_neg positional] at sign ⊢
    obtain ⟨digits, point⟩ := shape
    match digits, all with
    | [], _ => exact readAs_scaled (allDigits_zeros 1) (by simp) rfl sign
    | [d], all => exact readAs_scaled all (by simp) rfl sign
    | d :: next :: rest, all =>
      have whole : AllDigits [d] := all.of_subset (by simp)
      have fraction : AllDigits (next :: rest) := all.of_subset (by simp)
      exact readAs_point_scaled whole (by simp) fraction rfl sign

/-- The text of a size is read as the number that it writes. -/
theorem readAs_sizeText {m : Nat} {q : Int} (canonical : Canonical m q)
    (sign : splitSign text = (negative, sizeText m q)) :
    ReadAs text negative (readValue (sizeText m q)) := by
  rw [sizeText] at sign ⊢
  by_cases zero : m = 0
  · rw [if_pos zero] at sign ⊢
    exact readAs_point (allDigits_zeros 1) (by simp) (allDigits_zeros 1) sign
  · rw [if_neg zero] at sign ⊢
    obtain ⟨n, grid, digits, _⟩ := shortest_rounds canonical (Nat.pos_of_ne_zero zero)
    rw [digits] at sign ⊢
    exact readAs_text (Digits.allDigits_ofNat n grid) sign

end

/-! ### Doubles from their texts -/

/-- The exponent of an ordinary double is that of a number below `2 ^ 1024`. -/
theorem exponent_le_of_ofFloat {x : Float} {negative : Bool} {m : Nat} {q : Int}
    (parts : Binary.ofFloat x = .finite negative m q) : q ≤ 971 := by
  simp only [Binary.ofFloat] at parts
  split at parts
  · split at parts <;> cases parts
  · split at parts
    · cases parts
      omega
    · cases parts
      omega

section

variable {m : Nat} {q : Int}

/-- The parts of a double that was put together from them, with a sign. -/
theorem ofFloat_signed (canonical : Canonical m q) (finite : q ≤ 971) (positive : 0 < m)
    (negative : Bool) :
    Binary.ofFloat (if negative then -ofParts m q positive else ofParts m q positive) =
      .finite negative m q := by
  cases negative with
  | false => exact ofFloat_pack canonical finite positive .positive
  | true =>
    show Binary.ofFloat (.ofModel (.pack
      (UnpackedFloat.neg (Float.Model.pack (.finite .positive m q positive)).unpack))) = _
    rw [unpack_pack canonical finite]
    exact ofFloat_pack canonical finite positive .negative

theorem ofFloat_zero (negative : Bool) (exponent : Int) :
    Binary.ofFloat (if negative then -nearest 0 exponent else nearest 0 exponent) =
      .finite negative 0 (-1074) := by
  have zero : nearest 0 exponent = 0.0 := if_pos rfl
  rw [zero]
  cases negative <;> decide +kernel

end

/-- The sign of a double in front of the text of its size. -/
theorem splitSign_chars {x : Float} {negative : Bool} {m : Nat} {q : Int}
    (parts : Binary.ofFloat x = .finite negative m q) :
    splitSign (Layout.json.chars x) = (negative, sizeText m q) := by
  rw [chars_of_finite parts]
  cases negative with
  | true => rfl
  | false =>
    obtain ⟨first, rest, head, digit⟩ := (fractional_sizeText (canonical_of_ofFloat parts)).head
    rw [if_neg Bool.false_ne_true, head]
    exact splitSign_of_isDigit digit

/-- A text that writes a number which rounds to the size of a double is read as the double. -/
theorem ReadAs.float? {x : Float} {text : List Char} {negative : Bool} {m : Nat} {q : Int}
    {value : ℚ} (read : ReadAs text negative value)
    (parts : Binary.ofFloat x = .finite negative m q)
    (rounds : m = 0 ∧ value = 0 ∨ 0 < m ∧ Rounds m q value) : float? text = some x := by
  have canonical := canonical_of_ofFloat parts
  have finite : isFinite x = true := by rw [isFinite, parts]
  obtain ⟨n, exponent, value, read⟩ := read
  rw [read]
  refine congrArg some (ofFloat_injective finite ?_).symm
  rw [parts]
  rcases rounds with ⟨rfl, zero⟩ | ⟨positive, rounds⟩
  · rw [zero, eq_comm, mul_eq_zero, Nat.cast_eq_zero] at value
    have none : n = 0 := value.resolve_right (by positivity)
    have bottom : q = -1074 := canonical.normal.resolve_left (by norm_num)
    rw [none, bottom, ofFloat_zero]
  · rw [value] at rounds
    rw [nearest_eq canonical (exponent_le_of_ofFloat parts) positive rounds,
      ofFloat_signed canonical (exponent_le_of_ofFloat parts) positive]

/-- **An ordinary double is read back from its text.** -/
theorem float?_chars {x : Float} (finite : isFinite x = true) :
    float? (Layout.json.chars x) = some x := by
  obtain ⟨negative, m, q, parts⟩ := exists_parts finite
  have canonical := canonical_of_ofFloat parts
  exact (readAs_sizeText canonical (splitSign_chars parts)).float? parts
    (readValue_sizeText canonical)

/-! ### Plain texts of doubles -/

/-- A plain text is that of a whole number, or it is the text with a fraction. -/
theorem plainText_cases {shape : Digits} (all : AllDigits shape.digits) :
    (AllDigits (Layout.plain.text shape) ∧ Layout.plain.text shape ≠ [] ∧
        (numeral (Layout.plain.text shape) : ℚ) = shape.value) ∨
      ∃ whole fraction, Layout.plain.text shape = whole ++ '.' :: fraction ∧ AllDigits whole ∧
        whole ≠ [] ∧ AllDigits fraction ∧ readValue (Layout.plain.text shape) = shape.value := by
  have text : Layout.plain.text shape = Layout.plain.positionalText shape.digits shape.point := rfl
  by_cases whole : ¬ shape.point ≤ 0 ∧ shape.digits.length ≤ shape.point.toNat
  · have padded : Layout.plain.text shape =
        shape.digits ++ List.replicate (shape.point.toNat - shape.digits.length) '0' := by
      rw [text, Layout.positionalText, if_neg whole.1, if_pos whole.2]
      exact List.append_nil _
    refine .inl ⟨?_, ?_, ?_⟩ <;> rw [padded]
    · exact all.append (allDigits_zeros _)
    · intro none
      have length := congrArg List.length none
      rw [List.length_append, List.length_replicate, List.length_nil] at length
      omega
    · rw [numeral_append_zeros, Digits.value, Nat.cast_mul, Nat.cast_pow, Nat.cast_ofNat,
        ← zpow_natCast]
      congr 2
      omega
  · have same : Layout.plain.text shape =
        Layout.json.positionalText shape.digits shape.point := by
      rw [text, Layout.positionalText, Layout.positionalText]
      split
      · rfl
      · rw [if_neg (by omega), if_neg (by omega)]
    obtain ⟨whole, fraction, shaped, digits, nonempty, more⟩ := positionalText_eq all shape.point
    rw [same]
    exact .inr ⟨whole, fraction, shaped, digits, nonempty, more,
      Layout.readValue_positionalText all shape.point⟩

/-- The plain text of a size. -/
def plainText (mantissa : Nat) (exponent : Int) : List Char :=
  if mantissa = 0 then ['0'] else Layout.plain.text (shortest mantissa exponent)

/-- The plain text of a size is read as a number that rounds to it. -/
theorem readAs_plainText {m : Nat} {q : Int} {text : List Char} {negative : Bool}
    (canonical : Canonical m q) (sign : splitSign text = (negative, plainText m q)) :
    ∃ value, ReadAs text negative value ∧ (m = 0 ∧ value = 0 ∨ 0 < m ∧ Rounds m q value) := by
  rcases Nat.eq_zero_or_pos m with rfl | positive
  · exact ⟨_, readAs_digits (allDigits_zeros 1) (by simp) sign, .inl ⟨rfl, rfl⟩⟩
  · obtain ⟨n, grid, digits, rounds⟩ := shortest_rounds canonical positive
    have all := Digits.allDigits_ofNat n grid
    rw [plainText, if_neg positive.ne', digits] at sign
    rw [← Digits.value_ofNat] at rounds
    refine ⟨_, ?_, .inr ⟨positive, rounds⟩⟩
    rcases plainText_cases all with
      ⟨digits, nonempty, value⟩ | ⟨whole, fraction, shape, digits, nonempty, more, value⟩
    · rw [← value]
      exact readAs_digits digits nonempty sign
    · rw [← value, shape]
      exact readAs_point digits nonempty more (sign.trans (by rw [shape]))

theorem head_plainText {m : Nat} {q : Int} (canonical : Canonical m q) :
    ∃ first rest, plainText m q = first :: rest ∧ first.isDigit = true := by
  rw [plainText]
  split
  · exact ⟨'0', [], rfl, rfl⟩
  · rename_i nonzero
    obtain ⟨n, grid, digits, -⟩ := shortest_rounds canonical (Nat.pos_of_ne_zero nonzero)
    rw [digits]
    rcases plainText_cases (Digits.allDigits_ofNat n grid) with
      ⟨digits, nonempty, -⟩ | ⟨whole, fraction, shape, digits, nonempty, -⟩
    · exact head_of_digits digits nonempty
    · rw [shape]
      exact head_of_append digits nonempty

/-- **An ordinary double is read back from its plain text.** -/
theorem float?_plain {x : Float} (finite : isFinite x = true) :
    float? (Layout.plain.chars x) = some x := by
  obtain ⟨negative, m, q, parts⟩ := exists_parts finite
  have canonical := canonical_of_ofFloat parts
  have chars : Layout.plain.chars x =
      if negative then '-' :: plainText m q else plainText m q := by
    rw [Layout.chars, parts]
    rfl
  have sign : splitSign (Layout.plain.chars x) = (negative, plainText m q) := by
    rw [chars]
    cases negative with
    | true => rfl
    | false =>
      obtain ⟨first, rest, head, digit⟩ := head_plainText canonical
      rw [if_neg Bool.false_ne_true, head]
      exact splitSign_of_isDigit digit
  obtain ⟨value, read, rounds⟩ := readAs_plainText canonical sign
  exact read.float? parts rounds

/-! ### Whole numbers from their texts -/

/-- **A whole number of the signed range is read back from its text.** -/
theorem int?_intChars {n : Int} (least : -0x8000000000000000 ≤ n) (most : n < 0x8000000000000000) :
    int? (intChars n) = some n := by
  obtain ⟨first, rest, head, digit⟩ := head_natDigits n.natAbs
  have sign : splitSign (intChars n) = (decide (n < 0), natDigits n.natAbs) := by
    rw [intChars]
    by_cases negative : n < 0
    · rw [if_pos negative, decide_eq_true negative]
      rfl
    · rw [if_neg negative, decide_eq_false negative, head]
      exact splitSign_of_isDigit digit
  have nonempty : (natDigits n.natAbs).isEmpty = false := by rw [head, List.isEmpty_cons]
  have all : (natDigits n.natAbs).all isDigit = true :=
    List.all_eq_true.mpr fun c member => isDigit_of_isDigit (allDigits_natDigits _ c member)
  have size : natOfDigits (natDigits n.natAbs) 0 = n.natAbs := numeral_natDigits _
  have value : (if decide (n < 0) = true then -(n.natAbs : ℤ) else n.natAbs) = n := by
    split <;> rename_i negative <;> rw [decide_eq_true_eq] at negative <;> omega
  rw [int?, sign]
  dsimp only
  rw [nonempty, all, size, value]
  have range : -0x8000000000000000 ≤ n ∧ n < 0x8000000000000000 := ⟨least, most⟩
  exact if_pos range

/-- **No ordinary double's text is that of a whole number.** -/
theorem int?_chars {x : Float} (finite : isFinite x = true) :
    int? (Layout.json.chars x) = none := by
  obtain ⟨negative, m, q, parts⟩ := exists_parts finite
  have canonical := canonical_of_ofFloat parts
  have notDigits : (sizeText m q).all isDigit = false := by
    by_contra digits
    rw [Bool.not_eq_false, List.all_eq_true] at digits
    refine (fractional_sizeText canonical).not_allDigits fun c member => ?_
    have digit := of_decide_eq_true (digits c member)
    exact Char.isDigit_iff_toNat.mpr digit
  rw [int?, splitSign_chars parts]
  dsimp only
  rw [notDigits, Bool.not_false, Bool.or_true]
  rfl

end FieldResolver.Decimal
