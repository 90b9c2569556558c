/-
**Forms and Base64, read back.**

Both encodings write the bytes of a text in UTF-8 with characters of their own, so that whatever
pluses, percent signs and characters of any plane a text has, decoding finds its bytes again.

* `utf8`, `bytes_eq`, `ofBytes?_bytes`: the bytes of a text, and that they are read as the text;
* `FormSpelling`: how form encoding spells a byte, and `formSpelling_formByte`, that it does;
* `formDecode?_formEncode`: a form's text is read back;
* `Base64.Encodes`: Base64 text as groups of six bits, and `Base64.encodes_encodeBytes`;
* `Base64.decodeBytes?_encodeBytes`: Base64 text is read back;
* `Template.Function.encodings_readBack`: what templates get.
-/

import FieldResolver.Template.Function.Call
import Mathlib.Data.List.Forall2
import Mathlib.Data.Nat.Bitwise

namespace FieldResolver.Text

/-! ### Bytes -/

/-- The bytes of characters in UTF-8. -/
def utf8 (chars : List Char) : List UInt8 := chars.flatMap String.utf8EncodeChar

theorem bytes_ofList (chars : List Char) : bytes (String.ofList chars) = utf8 chars := by
  rw [bytes, String.toUTF8, String.toByteArray_ofList, List.utf8Encode,
    List.toList_data_toByteArray]
  rfl

theorem bytes_eq (text : String) : bytes text = utf8 text.toList := by
  rw [← bytes_ofList, String.ofList_toList]

/-- **The bytes of a text are read as the text.** -/
theorem ofBytes?_bytes (text : String) : ofBytes? (bytes text) = some text := by
  have same : (bytes text).toByteArray = text.toUTF8 :=
    ByteArray.ext (Array.toList_inj.mp List.toList_data_toByteArray)
  rw [ofBytes?, same]
  exact dif_pos text.isValidUTF8

/-- The byte of a character that has only one. -/
def byteOf (c : Char) : UInt8 := UInt8.ofNat c.toNat

/-- A text of characters up to U+007F has their bytes. -/
theorem utf8_of_lt {chars : List Char} (low : ∀ c ∈ chars, c.toNat < 0x80) :
    utf8 chars = chars.map byteOf := by
  induction chars with
  | nil => rfl
  | cons c rest ih =>
    obtain ⟨here, below⟩ := List.forall_mem_cons.mp low
    have single : String.utf8EncodeChar c = [byteOf c] := if_pos (Nat.le_of_lt_succ here)
    rw [utf8, List.flatMap_cons, single, ← utf8, ih below]
    rfl

/-- What holds of all numbers below 256 holds of all bytes. -/
theorem forall_byte {holds : UInt8 → Prop} (all : ∀ n < 256, holds (UInt8.ofNat n)) (byte : UInt8) :
    holds byte := by
  have here := all byte.toNat byte.toNat_lt
  rwa [UInt8.ofNat_toNat] at here

/-! ### Forms -/

/-- Whether a form writes a character as it is. -/
def IsSafe (c : Char) : Prop := c.isAlphanum = true ∨ c ∈ ['*', '-', '.', '_']

instance (c : Char) : Decidable (IsSafe c) := inferInstanceAs (Decidable (_ ∨ _))

/-- The hexadecimal digits in capitals. -/
def capitals : List Char := "0123456789ABCDEF".toList

/-- A hexadecimal digit in capitals. -/
def capital (digit : Fin 16) : Char := capitals.get (digit.cast (by decide))

/-- How a form spells a byte: letters, digits and four marks as they are, a blank as a plus sign,
and anything else as a percent sign with two hexadecimal digits. -/
inductive FormSpelling : UInt8 → List Char → Prop where
  | itself {c : Char} (safe : IsSafe c) : FormSpelling (byteOf c) [c]
  | blank : FormSpelling 32 ['+']
  | percent {byte : UInt8} {high low : Fin 16} (value : byte.toNat = 16 * high + low)
      (visible : byte ≠ 32) (other : ∀ c, IsSafe c → byte ≠ byteOf c) :
      FormSpelling byte ['%', capital high, capital low]

theorem hexDigit_eq : ∀ digit : Fin 16, hexDigit digit = capital digit := by decide

theorem isSafe_of_isFormByte : ∀ byte, isFormByte byte = true →
    IsSafe (Char.ofNat byte.toNat) ∧ byteOf (Char.ofNat byte.toNat) = byte :=
  forall_byte (by decide +kernel)

/-- Safe characters have one byte. -/
theorem lt_of_isSafe {c : Char} (safe : IsSafe c) : c.toNat < 0x80 := by
  rcases safe with letter | mark
  · change (decide (65 ≤ c.val ∧ c.val ≤ 90) ||
      (decide (97 ≤ c.val) && decide (c.val ≤ 122)) ||
      (decide (48 ≤ c.val) && decide (c.val ≤ 57))) = true at letter
    simp only [Bool.or_eq_true, Bool.and_eq_true, decide_eq_true_eq,
      UInt32.le_iff_toNat_le] at letter
    change ((65 ≤ c.toNat ∧ c.toNat ≤ 90) ∨ (97 ≤ c.toNat ∧ c.toNat ≤ 122)) ∨
      48 ≤ c.toNat ∧ c.toNat ≤ 57 at letter
    omega
  · simp only [List.mem_cons, List.not_mem_nil, or_false] at mark
    rcases mark with rfl | rfl | rfl | rfl
    all_goals decide

theorem isFormByte_of_isSafe {c : Char} (safe : IsSafe c) : isFormByte (byteOf c) = true := by
  have all : ∀ n < 0x80, IsSafe (Char.ofNat n) → isFormByte (UInt8.ofNat n) = true := by
    decide +kernel
  have here := all c.toNat (lt_of_isSafe safe)
  rw [Char.ofNat_toNat] at here
  exact here safe

/-- **Every byte is spelled like this.** -/
theorem formSpelling_formByte (byte : UInt8) : FormSpelling byte (formByte byte) := by
  have bound : byte.toNat < 256 := byte.toNat_lt
  unfold formByte
  split
  · rename_i safe
    obtain ⟨isSafe, same⟩ := isSafe_of_isFormByte byte safe
    have spelling := FormSpelling.itself isSafe
    rwa [same] at spelling
  · rename_i unsafeByte
    split
    · rename_i blank
      rw [eq_of_beq blank]
      exact .blank
    · rename_i visible
      have high := hexDigit_eq ⟨byte.toNat / 16, by omega⟩
      have low := hexDigit_eq ⟨byte.toNat % 16, by omega⟩
      rw [percent, high, low]
      refine .percent (by simp; omega) (by simpa using visible) fun c safe same => ?_
      rw [same, isFormByte_of_isSafe safe] at unsafeByte
      exact unsafeByte rfl

/-- Whether a text is a form's text of bytes: every byte is spelled like this. -/
def IsForm (bytes : List UInt8) (form : List Char) : Prop :=
  ∃ pieces, List.Forall₂ FormSpelling bytes pieces ∧ form = pieces.flatten

theorem isForm_formBytes (bytes : List UInt8) : IsForm bytes (bytes.flatMap formByte) := by
  refine ⟨bytes.map formByte, ?_, List.flatMap_def⟩
  rw [List.forall₂_map_right_iff, List.forall₂_same]
  exact fun byte _ => formSpelling_formByte byte

/-! ### Reading forms -/

/-- Plus signs are read as blanks. -/
def unplus (byte : UInt8) : UInt8 := if byte == 43 then 32 else byte

theorem percentDecode_of_ne {byte : UInt8} (other : byte ≠ 37) (rest : List UInt8) :
    percentDecode (byte :: rest) = byte :: percentDecode rest := by
  rw [percentDecode]
  exact fun _ _ _ percent => absurd percent other

theorem hexValue?_capital : ∀ digit : Fin 16,
    hexValue? (unplus (byteOf (capital digit))) = some (UInt8.ofNat digit) := by decide

theorem lt_of_spelling {byte : UInt8} {spelling : List Char} (spells : FormSpelling byte spelling) :
    ∀ c ∈ spelling, c.toNat < 0x80 := by
  have digit : ∀ digit : Fin 16, (capital digit).toNat < 0x80 := by decide
  cases spells with
  | itself safe => simpa using lt_of_isSafe safe
  | blank => simp
  | percent => simpa using ⟨digit _, digit _⟩

/-- A byte is read back from its spelling, whatever follows. -/
theorem FormSpelling.percentDecode {byte : UInt8} {spelling : List Char}
    (spells : FormSpelling byte spelling) (rest : List UInt8) :
    percentDecode ((spelling.map byteOf).map unplus ++ rest) = byte :: percentDecode rest := by
  cases spells with
  | @itself c safe =>
    have ordinary := isFormByte_of_isSafe safe
    have noPlus : unplus (byteOf c) = byteOf c := by
      refine if_neg fun plus => ?_
      rw [eq_of_beq plus] at ordinary
      cases ordinary
    rw [List.map_singleton, List.map_singleton, noPlus, List.singleton_append]
    refine percentDecode_of_ne (fun percent => ?_) rest
    rw [percent] at ordinary
    cases ordinary
  | blank => exact percentDecode_of_ne (by decide) rest
  | @percent _ high low value =>
    show Text.percentDecode (37 :: unplus (byteOf (capital high)) ::
      unplus (byteOf (capital low)) :: rest) = _
    rw [Text.percentDecode, hexValue?_capital, hexValue?_capital]
    have same : UInt8.ofNat high * 16 + UInt8.ofNat low = byte := by
      have bound := byte.toNat_lt
      apply UInt8.toNat_inj.mp
      simp
      omega
    rw [← same]

/-- **A form's text is read back.** -/
theorem formDecode?_formEncode (text : String) : formDecode? (formEncode text) = some text := by
  have low : ∀ c ∈ (bytes text).flatMap formByte, c.toNat < 0x80 :=
    List.forall_mem_flatMap.mpr fun byte _ => lt_of_spelling (formSpelling_formByte byte)
  have read (bytes : List UInt8) :
      percentDecode (((bytes.flatMap formByte).map byteOf).map unplus) = bytes := by
    induction bytes with
    | nil => rfl
    | cons byte rest ih =>
      rw [List.flatMap_cons, List.map_append, List.map_append,
        (formSpelling_formByte byte).percentDecode, ih]
  rw [formDecode?, formEncode, bytes_ofList, utf8_of_lt low]
  show ofBytes? (percentDecode (((_ : List Char).map byteOf).map unplus)) = _
  rw [read]
  exact ofBytes?_bytes text

example : formEncode "a+b %20é/😀" = "a%2Bb+%2520%C3%A9%2F%F0%9F%98%80" := by decide

namespace Base64

/-! ### Groups of bits -/

/-- The lowest bits of a number, the highest of them first. -/
def bits : Nat → Nat → List Bool
  | 0, _ => []
  | width + 1, n => n.testBit width :: bits width n

/-- The bits of a number from some place on and those below it. -/
theorem bits_add (front back n : Nat) :
    bits (front + back) n = bits front (n / 2 ^ back) ++ bits back (n % 2 ^ back) := by
  have low : ∀ width ≤ back, bits width n = bits width (n % 2 ^ back) := by
    intro width below
    induction width with
    | zero => rfl
    | succ width ih =>
      rw [bits, bits, ih (Nat.le_of_succ_le below), Nat.testBit_mod_two_pow]
      simp [Nat.lt_of_succ_le below]
  induction front with
  | zero => simpa [bits] using low back le_rfl
  | succ front ih =>
    rw [Nat.add_right_comm, bits, bits, ih, Nat.testBit_div_two_pow]
    rfl

/-- The bits of two numbers that are put together. -/
theorem bits_join (front : Nat) {back low : Nat} (fits : low < 2 ^ back) (high : Nat) :
    bits (front + back) (high * 2 ^ back + low) = bits front high ++ bits back low := by
  have positive : 0 < 2 ^ back := Nat.two_pow_pos back
  rw [bits_add, Nat.mul_comm, Nat.mul_add_div positive, Nat.mul_add_mod, Nat.div_eq_of_lt fits,
    Nat.mod_eq_of_lt fits, Nat.add_zero]

theorem bits_zero (width : Nat) : bits width 0 = List.replicate width false := by
  induction width with
  | zero => rfl
  | succ width ih => rw [bits, ih, Nat.zero_testBit, List.replicate_succ]

/-! ### Encoding -/

/-- The characters of the digits. -/
def alphabet : List Char :=
  "ABCDEFGHIJKLMNOPQRSTUVWXYZabcdefghijklmnopqrstuvwxyz0123456789+/".toList

/-- The character of a digit. -/
def sign (digit : Fin 64) : Char := alphabet.get (digit.cast (by decide))

/-- The bits of digits. -/
def digitBits (digits : List (Fin 64)) : List Bool := digits.flatMap fun digit => bits 6 digit.val

/-- The bits of bytes. -/
def byteBits (bytes : List UInt8) : List Bool := bytes.flatMap fun byte => bits 8 byte.toNat

theorem digitBits_cons (digit : Fin 64) (rest : List (Fin 64)) :
    digitBits (digit :: rest) = bits 6 digit.val ++ digitBits rest := List.flatMap_cons

theorem byteBits_cons (byte : UInt8) (rest : List UInt8) :
    byteBits (byte :: rest) = bits 8 byte.toNat ++ byteBits rest := List.flatMap_cons

/-- Whether a text is the Base64 text of bytes: digits have the bits of the bytes and as few zeros
behind them as fill up the last digit, and as few equals signs follow as fill up the last group of
four characters. -/
def Encodes (bytes : List UInt8) (text : List Char) : Prop :=
  ∃ (digits : List (Fin 64)) (zeros fill : Nat), zeros < 6 ∧ fill < 4 ∧
    digitBits digits = byteBits bytes ++ List.replicate zeros false ∧
    text = digits.map sign ++ List.replicate fill '=' ∧ 4 ∣ text.length

theorem letter_eq : ∀ digit : Fin 64, letter digit = sign digit := by decide

/-- The bits of a number in front of those of one byte more. -/
theorem bits_byte (front high : Nat) (byte : UInt8) :
    bits (front + 8) (high * 256 + byte.toNat) = bits front high ++ bits 8 byte.toNat :=
  bits_join front byte.toNat_lt high

/-- The bits of a number in front of those of its last digit. -/
theorem bits_digit (front n : Nat) :
    bits (front + 6) n = bits front (n / 64) ++ bits 6 (n % 64) := bits_add front 6 n

theorem bits_twelve (n : Nat) : bits 12 n = bits 6 (n / 64) ++ bits 6 (n % 64) := bits_digit 6 n

theorem bits_eighteen (n : Nat) :
    bits 18 n = bits 6 (n / 4096) ++ (bits 6 (n / 64 % 64) ++ bits 6 (n % 64)) := by
  rw [bits_digit 12, bits_twelve, Nat.div_div_eq_div_mul, List.append_assoc]

theorem bits_twentyfour (n : Nat) :
    bits 24 n = bits 6 (n / 262144) ++
      (bits 6 (n / 4096 % 64) ++ (bits 6 (n / 64 % 64) ++ bits 6 (n % 64))) := by
  rw [bits_digit 18, bits_eighteen, Nat.div_div_eq_div_mul, Nat.div_div_eq_div_mul]
  simp only [List.append_assoc]

/-- One byte alone. -/
theorem encodes_one (a : UInt8) : Encodes [a] (encodeBytes [a]) := by
  have bound := a.toNat_lt
  have high : a.toNat * 16 / 64 < 64 := by omega
  have low : a.toNat * 16 % 64 < 64 := by omega
  have same : bits 12 (a.toNat * 16) = bits 8 a.toNat ++ bits 4 0 :=
    bits_join 8 (Nat.two_pow_pos 4) a.toNat
  refine ⟨[⟨_, high⟩, ⟨_, low⟩], 4, 2, by decide, by decide, ?_, ?_, ⟨1, rfl⟩⟩
  · rw [bits_twelve, bits_zero] at same
    simpa [digitBits, byteBits] using same
  · simp [encodeBytes, ← letter_eq]

/-- Two bytes alone. -/
theorem encodes_two (a b : UInt8) : Encodes [a, b] (encodeBytes [a, b]) := by
  have bound := a.toNat_lt
  have bound' := b.toNat_lt
  have high : (a.toNat * 256 + b.toNat) * 4 / 4096 < 64 := by omega
  have middle : (a.toNat * 256 + b.toNat) * 4 / 64 % 64 < 64 := by omega
  have low : (a.toNat * 256 + b.toNat) * 4 % 64 < 64 := by omega
  have same : bits 18 ((a.toNat * 256 + b.toNat) * 4) =
      bits 16 (a.toNat * 256 + b.toNat) ++ bits 2 0 := bits_join 16 (Nat.two_pow_pos 2) _
  refine ⟨[⟨_, high⟩, ⟨_, middle⟩, ⟨_, low⟩], 2, 1, by decide, by decide, ?_, ?_, ⟨1, rfl⟩⟩
  · rw [bits_eighteen, bits_byte 8, bits_zero] at same
    simpa [digitBits, byteBits] using same
  · simp [encodeBytes, ← letter_eq]

/-- **Base64 text is the text of the bytes.** -/
theorem encodes_encodeBytes (bytes : List UInt8) : Encodes bytes (encodeBytes bytes) := by
  induction bytes using encodeBytes.induct with
  | case1 => exact ⟨[], 0, 0, by decide, by decide, rfl, rfl, ⟨0, rfl⟩⟩
  | case2 a => exact encodes_one a
  | case3 a b => exact encodes_two a b
  | case4 a b c rest ih =>
    have bound := a.toNat_lt
    have bound' := b.toNat_lt
    have bound'' := c.toNat_lt
    have first : ((a.toNat * 256 + b.toNat) * 256 + c.toNat) / 262144 < 64 := by omega
    have second : ((a.toNat * 256 + b.toNat) * 256 + c.toNat) / 4096 % 64 < 64 := by omega
    have third : ((a.toNat * 256 + b.toNat) * 256 + c.toNat) / 64 % 64 < 64 := by omega
    have fourth : ((a.toNat * 256 + b.toNat) * 256 + c.toNat) % 64 < 64 := by omega
    have group := bits_byte 16 (a.toNat * 256 + b.toNat) c
    rw [bits_byte 8, bits_twentyfour] at group
    obtain ⟨digits, zeros, fill, few, fewer, same, spelled, whole⟩ := ih
    refine ⟨⟨_, first⟩ :: ⟨_, second⟩ :: ⟨_, third⟩ :: ⟨_, fourth⟩ :: digits, zeros, fill, few,
      fewer, ?_, ?_, ?_⟩
    · have joined := congrArg (· ++ digitBits digits) group
      simp only [List.append_assoc, same] at joined
      simp only [digitBits_cons, byteBits_cons, List.append_assoc, same]
      exact joined
    · simp [encodeBytes, ← letter_eq, spelled]
    · obtain ⟨groups, length⟩ := whole
      exact ⟨groups + 1, by simp [encodeBytes, length]; omega⟩

/-! ### Decoding -/

theorem value?_letter : ∀ n < 64, value? (letter n) = some n := by decide

theorem letter_ne : ∀ n < 64, letter n ≠ '=' := by decide

/-- **Base64 text is read back.** -/
theorem decodeBytes?_encodeBytes (bytes : List UInt8) :
    decodeBytes? (encodeBytes bytes) = some bytes := by
  induction bytes using encodeBytes.induct with
  | case1 => rfl
  | case2 a =>
    have bound := a.toNat_lt
    have joined : a.toNat * 16 / 64 * 64 + a.toNat * 16 % 64 = a.toNat * 16 := by omega
    rw [encodeBytes, decodeBytes?, value?_letter _ (by omega), value?_letter _ (by omega)]
    simp [joined]
  | case3 a b =>
    have bound := a.toNat_lt
    have bound' := b.toNat_lt
    generalize pair : (a.toNat * 256 + b.toNat) * 4 = n
    have joined : (n / 4096 * 64 + n / 64 % 64) * 64 + n % 64 = n := by omega
    have first : n / 1024 = a.toNat := by omega
    have second : n / 4 % 256 = b.toNat := by omega
    have whole : n % 4 = 0 := by omega
    rw [encodeBytes, pair, decodeBytes?, value?_letter _ (by omega), value?_letter _ (by omega),
      value?_letter _ (by omega)]
    · simp [joined, first, second, whole]
    · exact letter_ne _ (by omega)
  | case4 a b c rest ih =>
    have bound := a.toNat_lt
    have bound' := b.toNat_lt
    have bound'' := c.toNat_lt
    generalize group : (a.toNat * 256 + b.toNat) * 256 + c.toNat = n
    have joined : ((n / 262144 * 64 + n / 4096 % 64) * 64 + n / 64 % 64) * 64 + n % 64 = n := by
      omega
    have first : n / 65536 = a.toNat := by omega
    have second : n / 256 % 256 = b.toNat := by omega
    have third : n % 256 = c.toNat := by omega
    rw [encodeBytes, group, decodeBytes?, value?_letter _ (by omega), value?_letter _ (by omega),
      value?_letter _ (by omega), value?_letter _ (by omega), ih]
    · simp [joined, first, second, third]
    · exact fun _ fills _ => absurd fills (letter_ne _ (by omega))
    · exact fun fills _ => absurd fills (letter_ne _ (by omega))

example : encode "hé😀" = "aMOp8J+YgA==" := by decide

end Base64

end FieldResolver.Text

namespace FieldResolver.Template.Function

open Text

variable (environment : Environment)

/-- What templates get for a string is its text in a form. -/
theorem callIn_urlEncode (state : State) (text : String) (more : List Value) :
    callIn environment .util "urlEncode" (.string text :: more) state =
      .ok (.string (formEncode text)) state := by
  rw [callIn_util environment rfl, Call.text_string]
  rfl

/-- A form's text gives the text that was written. -/
theorem callIn_urlDecode (state : State) (text : String) (more : List Value) :
    callIn environment .util "urlDecode" (.string (formEncode text) :: more) state =
      .ok (.string text) state := by
  rw [callIn_util environment rfl, Call.text_string]
  simp only [bind, Except.bind, formDecode?_formEncode]
  rfl

/-- What templates get for a string is its Base64 text. -/
theorem callIn_base64Encode (state : State) (text : String) (more : List Value) :
    callIn environment .util "base64Encode" (.string text :: more) state =
      .ok (.string (Base64.encode text)) state := by
  rw [callIn_util environment rfl, Call.text_string]
  rfl

theorem base64Decoded_encode (text : String) :
    General.base64Decoded (Base64.encode text) = .ok text := by
  rw [General.base64Decoded, Base64.encode, String.toList_ofList,
    Base64.decodeBytes?_encodeBytes]
  simp only [ofBytes?_bytes]

/-- Base64 text gives the text that was written. -/
theorem callIn_base64Decode (state : State) (text : String) (more : List Value) :
    callIn environment .util "base64Decode" (.string (Base64.encode text) :: more) state =
      .ok (.string text) state := by
  rw [callIn_util environment rfl, Call.text_string]
  show place .util "base64Decode" ((General.base64Decoded (Base64.encode text)).map _) state = _
  rw [base64Decoded_encode]
  rfl

/-- **Encoded texts are read back.** For every string a template encodes, a form's text is that of
its bytes and decodes to the string, and so does its Base64 text, wherever and with whatever further
arguments they are decoded. -/
theorem encodings_readBack (state after : State) (text : String) (more others : List Value) :
    (∃ form, callIn environment .util "urlEncode" (.string text :: more) state =
        .ok (.string form) state ∧
      IsForm (bytes text) form.toList ∧
      callIn environment .util "urlDecode" (.string form :: others) after =
        .ok (.string text) after) ∧
      ∃ coded, callIn environment .util "base64Encode" (.string text :: more) state =
          .ok (.string coded) state ∧
        Base64.Encodes (bytes text) coded.toList ∧
        callIn environment .util "base64Decode" (.string coded :: others) after =
          .ok (.string text) after := by
  refine ⟨⟨_, callIn_urlEncode environment state text more, ?_,
    callIn_urlDecode environment after text others⟩,
    _, callIn_base64Encode environment state text more, ?_,
    callIn_base64Decode environment after text others⟩
  · rw [formEncode, String.toList_ofList]
    exact isForm_formBytes _
  · rw [Base64.encode, String.toList_ofList]
    exact Base64.encodes_encodeBytes _

end FieldResolver.Template.Function
