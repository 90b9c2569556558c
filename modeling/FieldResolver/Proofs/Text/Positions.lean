/-
**Where a text stands in another.**

Positions count characters, in searching as in cutting out parts, so that what is found is what is
cut out there. The bytes of a text stand in those of another only where its characters do, so that
searching bytes finds the same.

* `StandsIn`: where a part stands in a sequence;
* `isLeast_indexOf?`, `isGreatest_lastIndexOf?`: searching finds the first and the last place;
* `standsIn_utf8`: the bytes of a text stand behind those of the characters in front of it;
* `isLeast_bytes`, `isGreatest_bytes`: searching bytes finds the same places;
* `Template.substring_eq_ok`: a part is what stands between two positions;
* `Template.cuts`, `Template.found_or_missing`: what cutting out and searching give;
* `Template.positions_agree`: the methods of strings agree on positions.
-/

import FieldResolver.Proofs.Text.Encoding
import FieldResolver.Template.Methods
import Mathlib.Order.Bounds.Image

namespace FieldResolver.Text

/-! ### Standing in a sequence -/

/-- Whether a part stands in a sequence behind so many items. -/
def StandsIn {α : Type} (part whole : List α) (place : Nat) : Prop :=
  ∃ front back, whole = front ++ part ++ back ∧ front.length = place

section

variable {α : Type} {part whole : List α} {place : Nat}

theorem standsIn_nil : StandsIn part [] place ↔ part = [] ∧ place = 0 := by
  constructor
  · rintro ⟨front, back, split, rfl⟩
    obtain ⟨empty, -⟩ := List.append_eq_nil_iff.mp split.symm
    obtain ⟨rfl, rfl⟩ := List.append_eq_nil_iff.mp empty
    exact ⟨rfl, rfl⟩
  · rintro ⟨rfl, rfl⟩
    exact ⟨[], [], rfl, rfl⟩

theorem standsIn_zero : StandsIn part whole 0 ↔ part <+: whole := by
  constructor
  · rintro ⟨front, back, rfl, none⟩
    obtain rfl := List.eq_nil_of_length_eq_zero none
    exact List.prefix_append part back
  · rintro ⟨back, rfl⟩
    exact ⟨[], back, rfl, rfl⟩

theorem standsIn_succ {item : α} {rest : List α} :
    StandsIn part (item :: rest) (place + 1) ↔ StandsIn part rest place := by
  constructor
  · rintro ⟨front, back, split, length⟩
    cases front with
    | nil => simp at length
    | cons first front =>
      exact ⟨front, back, (List.cons.inj split).2, Nat.succ_inj.mp length⟩
  · rintro ⟨front, back, rfl, rfl⟩
    exact ⟨item :: front, back, rfl, rfl⟩

theorem StandsIn.le (stands : StandsIn part whole place) :
    place + part.length ≤ whole.length := by
  obtain ⟨front, back, rfl, rfl⟩ := stands
  simp

/-- A part stands at the end where its length puts it. -/
theorem suffix_iff_standsIn : part <:+ whole ↔
    part.length ≤ whole.length ∧ StandsIn part whole (whole.length - part.length) := by
  constructor
  · rintro ⟨front, rfl⟩
    exact ⟨by simp, front, [], by simp, by simp⟩
  · rintro ⟨_, front, back, split, length⟩
    have lengths := congrArg List.length split
    have none : back = [] := by
      rw [← List.length_eq_zero_iff]
      simp only [List.length_append] at lengths
      omega
    rw [none, List.append_nil] at split
    exact ⟨front, split.symm⟩

end

/-! ### Searching -/

section

variable {wanted text : List Char} {place : Nat}

/-- **Searching from the front finds the first place.** -/
theorem isLeast_indexOf? (found : indexOf? wanted text = some place) :
    IsLeast {place | StandsIn wanted text place} place := by
  induction text generalizing place with
  | nil =>
    simp only [indexOf?, Option.ite_none_right_eq_some, List.isEmpty_iff, Option.some_inj] at found
    obtain ⟨rfl, rfl⟩ := found
    exact ⟨standsIn_nil.mpr ⟨rfl, rfl⟩, fun _ _ => Nat.zero_le _⟩
  | cons c rest ih =>
    rw [indexOf?] at found
    by_cases first : startsWith (c :: rest) wanted
    · rw [if_pos first, Option.some_inj] at found
      subst found
      exact ⟨standsIn_zero.mpr (List.isPrefixOf_iff_prefix.mp first), fun _ _ => Nat.zero_le _⟩
    · rw [if_neg first] at found
      obtain ⟨below, there, rfl⟩ := Option.map_eq_some_iff.mp found
      obtain ⟨stands, least⟩ := ih there
      refine ⟨standsIn_succ.mpr stands, fun other standsThere => ?_⟩
      cases other with
      | zero => exact absurd (List.isPrefixOf_iff_prefix.mpr (standsIn_zero.mp standsThere)) first
      | succ other => exact Nat.succ_le_succ (least (standsIn_succ.mp standsThere))

/-- What stands somewhere is found from the front. -/
theorem indexOf?_ne_none (stands : StandsIn wanted text place) : indexOf? wanted text ≠ none := by
  induction text generalizing place with
  | nil =>
    simp [indexOf?, (standsIn_nil.mp stands).1]
  | cons c rest ih =>
    rw [indexOf?]
    by_cases first : startsWith (c :: rest) wanted
    · simp [first]
    · cases place with
      | zero => exact absurd (List.isPrefixOf_iff_prefix.mpr (standsIn_zero.mp stands)) first
      | succ place => simpa [first] using ih (standsIn_succ.mp stands)

/-- What stands somewhere is found from the end. -/
theorem lastIndexOf?_ne_none (stands : StandsIn wanted text place) :
    lastIndexOf? wanted text ≠ none := by
  induction text generalizing place with
  | nil =>
    simp [lastIndexOf?, (standsIn_nil.mp stands).1]
  | cons c rest ih =>
    rw [lastIndexOf?]
    cases place with
    | zero =>
      have first : startsWith (c :: rest) wanted :=
        List.isPrefixOf_iff_prefix.mpr (standsIn_zero.mp stands)
      split <;> simp [first]
    | succ place =>
      split
      · simp
      · rename_i missing
        exact absurd missing (ih (standsIn_succ.mp stands))

/-- **Searching from the end finds the last place.** -/
theorem isGreatest_lastIndexOf? (found : lastIndexOf? wanted text = some place) :
    IsGreatest {place | StandsIn wanted text place} place := by
  induction text generalizing place with
  | nil =>
    simp only [lastIndexOf?, Option.ite_none_right_eq_some, List.isEmpty_iff,
      Option.some_inj] at found
    obtain ⟨rfl, rfl⟩ := found
    exact ⟨standsIn_nil.mpr ⟨rfl, rfl⟩, fun other stands => (standsIn_nil.mp stands).2.le⟩
  | cons c rest ih =>
    rw [lastIndexOf?] at found
    split at found
    · rename_i below there
      obtain rfl := Option.some_inj.mp found
      obtain ⟨stands, greatest⟩ := ih there
      refine ⟨standsIn_succ.mpr stands, fun other standsThere => ?_⟩
      cases other with
      | zero => exact Nat.zero_le _
      | succ other => exact Nat.succ_le_succ (greatest (standsIn_succ.mp standsThere))
    · rename_i missing
      rw [Option.ite_none_right_eq_some, Option.some_inj] at found
      obtain ⟨first, rfl⟩ := found
      refine ⟨standsIn_zero.mpr (List.isPrefixOf_iff_prefix.mp first), fun other standsThere => ?_⟩
      cases other with
      | zero => exact le_rfl
      | succ other => exact absurd missing (lastIndexOf?_ne_none (standsIn_succ.mp standsThere))

end

/-! ### Searching bytes -/

theorem utf8_append (front back : List Char) : utf8 (front ++ back) = utf8 front ++ utf8 back :=
  List.flatMap_append

theorem utf8_cons (c : Char) (rest : List Char) :
    utf8 (c :: rest) = String.utf8EncodeChar c ++ utf8 rest := List.flatMap_cons

/-- A text whose bytes come first comes first. -/
theorem prefix_of_utf8 {front text : List Char} (first : utf8 front <+: utf8 text) :
    front <+: text := by
  obtain ⟨back, split⟩ := first
  refine List.isPrefix_of_utf8Encode_append_eq_utf8Encode back.toByteArray ?_
  rw [List.utf8Encode, List.utf8Encode, ← List.toByteArray_append]
  exact congrArg List.toByteArray split

/-- Bytes tell whether they are the first ones of a character. -/
theorem isFirst_iff {c : Char} {front back : List UInt8} {byte : UInt8}
    (split : String.utf8EncodeChar c = front ++ byte :: back) :
    byte.IsUTF8FirstByte ↔ front = [] := by
  have within : front.length < (String.utf8EncodeChar c).length := by simp [split]
  have here : (String.utf8EncodeChar c)[front.length] = byte := by simp [split]
  rw [← here, UInt8.isUTF8FirstByte_getElem_utf8EncodeChar, List.length_eq_zero_iff]

/-- The bytes of a text do not start inside those of a character. -/
theorem eq_nil_of_inside {c : Char} {wanted : List Char} {front part behind back : List UInt8}
    (split : String.utf8EncodeChar c = front ++ part) (something : wanted ≠ [])
    (same : utf8 wanted ++ back = part ++ behind) : front = [] ∨ part = [] := by
  obtain ⟨first, others, rfl⟩ := List.exists_cons_of_ne_nil something
  obtain ⟨byte, bytes, spelled⟩ := List.exists_cons_of_ne_nil (@String.utf8EncodeChar_ne_nil first)
  rw [utf8_cons, spelled] at same
  cases part with
  | nil => exact .inr rfl
  | cons other part =>
    obtain rfl := (List.cons.inj same).1
    have first : byte.IsUTF8FirstByte := (@isFirst_iff _ [] bytes byte spelled).mpr rfl
    exact .inl ((isFirst_iff split).mp first)

/-- Bytes of a text that stand behind the first one of another stand behind its first character. -/
theorem exists_behind {c : Char} {rest wanted : List Char} {front back : List UInt8}
    (something : wanted ≠ []) (later : front ≠ [])
    (split : utf8 (c :: rest) = front ++ (utf8 wanted ++ back)) :
    ∃ more, front = String.utf8EncodeChar c ++ more ∧
      utf8 rest = more ++ (utf8 wanted ++ back) := by
  rw [utf8_cons] at split
  rcases List.append_eq_append_iff.mp split with behind | ⟨part, inside, same⟩
  · exact behind
  · obtain rfl := (eq_nil_of_inside inside something same).resolve_left later
    exact ⟨[], by rw [inside, List.append_nil, List.append_nil], same.symm⟩

/-- How many bytes so many characters of a text have. -/
def bytesBefore (text : List Char) (place : Nat) : Nat := (utf8 (text.take place)).length

theorem bytesBefore_mono (text : List Char) : Monotone (bytesBefore text) := by
  intro place other le
  obtain ⟨more, split⟩ := List.take_prefix_take_left le
  rw [bytesBefore, bytesBefore, ← split, utf8_append, List.length_append]
  exact Nat.le_add_right _ _

/-- **The bytes of a text stand where it stands**, behind the bytes of the characters in front of
it, and nowhere else. -/
theorem standsIn_utf8 (text : List Char) {wanted : List Char} (something : wanted ≠ []) :
    {offset | StandsIn (utf8 wanted) (utf8 text) offset} =
      bytesBefore text '' {place | StandsIn wanted text place} := by
  ext offset
  constructor
  -- By induction on the text: what does not come first stands behind its first character.
  · intro stands
    induction text generalizing offset with
    | nil =>
      have first : utf8 wanted <+: utf8 [] := by
        rw [(standsIn_nil.mp stands).1]
        exact List.nil_prefix
      exact absurd (List.prefix_nil.mp (prefix_of_utf8 first)) something
    | cons c rest ih =>
      obtain ⟨front, back, split, rfl⟩ := stands
      rw [List.append_assoc] at split
      by_cases start : front = []
      · subst start
        exact ⟨0, standsIn_zero.mpr (prefix_of_utf8 ⟨back, split.symm⟩), rfl⟩
      · obtain ⟨more, rfl, below⟩ := exists_behind something start split
        rw [← List.append_assoc] at below
        obtain ⟨place, standsThere, length⟩ := ih _ ⟨more, back, below, rfl⟩
        refine ⟨place + 1, standsIn_succ.mpr standsThere, ?_⟩
        rw [bytesBefore, List.take_succ_cons, utf8_cons, List.length_append, List.length_append,
          ← length, bytesBefore]
  · rintro ⟨place, ⟨front, back, rfl, rfl⟩, rfl⟩
    refine ⟨utf8 front, utf8 back, by rw [utf8_append, utf8_append], ?_⟩
    rw [bytesBefore, List.append_assoc, List.take_left]

variable {wanted text : String} {place : Nat}

/-- **Searching bytes from the front finds the same.** -/
theorem isLeast_bytes (found : indexOf? wanted.toList text.toList = some place) :
    IsLeast {offset | StandsIn (bytes wanted) (bytes text) offset}
      (bytesBefore text.toList place) := by
  have least := isLeast_indexOf? found
  rw [bytes_eq, bytes_eq]
  -- No bytes stand at any offset, also inside a character.
  by_cases empty : wanted.toList = []
  · rw [empty] at least ⊢
    have start : place = 0 := Nat.le_zero.mp (least.2 (standsIn_zero.mpr List.nil_prefix))
    subst start
    exact ⟨standsIn_zero.mpr List.nil_prefix, fun _ _ => Nat.zero_le _⟩
  · rw [standsIn_utf8 text.toList empty]
    exact (bytesBefore_mono text.toList).map_isLeast least

/-- **Searching bytes from the end finds the same.** -/
theorem isGreatest_bytes (found : lastIndexOf? wanted.toList text.toList = some place) :
    IsGreatest {offset | StandsIn (bytes wanted) (bytes text) offset}
      (bytesBefore text.toList place) := by
  have greatest := isGreatest_lastIndexOf? found
  rw [bytes_eq, bytes_eq]
  by_cases empty : wanted.toList = []
  · rw [empty] at greatest ⊢
    have all : StandsIn [] text.toList text.toList.length := ⟨text.toList, [], by simp, rfl⟩
    have whole : bytesBefore text.toList place = (utf8 text.toList).length := by
      rw [bytesBefore, List.take_of_length_le (greatest.2 all)]
    rw [whole]
    exact ⟨⟨utf8 text.toList, [], by simp [utf8], rfl⟩, fun offset stands => stands.le⟩
  · rw [standsIn_utf8 text.toList empty]
    exact (bytesBefore_mono text.toList).map_isGreatest greatest

end FieldResolver.Text

namespace FieldResolver.Template

open Text

/-! ### Calling methods of strings -/

section

variable (text : String)

theorem callMethod_substring (first last : Int) :
    callMethod (.string text) "substring" [.int first, .int last] =
      Run.ofExcept ((substring text.toList first last).map ofChars) := by
  show (Run.heap >>= fun _ => Run.ofExcept (substring text.toList first last >>= _) >>= _) = _
  cases substring text.toList first last <;> rfl

/-- Without a second position a part goes to the end. -/
theorem callMethod_substring_one (first : Int) :
    callMethod (.string text) "substring" [.int first] =
      callMethod (.string text) "substring" [.int first, .int text.length] := by
  rw [callMethod_substring]
  show (Run.heap >>= fun _ =>
    Run.ofExcept (substring text.toList first text.length >>= _) >>= _) = _
  cases substring text.toList first text.length <;> rfl

theorem callMethod_charAt (index : Int) :
    callMethod (.string text) "charAt" [.int index] =
      Run.ofExcept ((charAt text.toList index).map ofChars) := by
  show (Run.heap >>= fun _ => Run.ofExcept (charAt text.toList index >>= _) >>= _) = _
  cases charAt text.toList index <;> rfl

theorem callMethod_concat (other : String) :
    callMethod (.string text) "concat" [.string other] = pure (.string (text ++ other)) := by
  have joined : String.ofList (text.toList ++ other.toList) = text ++ other := by
    rw [String.ofList_append, String.ofList_toList, String.ofList_toList]
  rw [← joined]
  rfl

end

/-! ### Parts of texts -/

/-- **A part is what stands between two positions.** -/
theorem substring_eq_ok {text part : List Char} {first last : Int} :
    substring text first last = .ok part ↔
      ∃ front behind, text = front ++ part ++ behind ∧ (front.length : Int) = first ∧
        ((front ++ part).length : Int) = last := by
  constructor
  · intro done
    unfold substring at done
    split at done
    · cases done
    · rename_i inside
      injection done with cut
      have front := List.take_append_drop first.toNat (text.take last.toNat)
      rw [cut, List.take_take, Nat.min_eq_left (by omega)] at front
      refine ⟨text.take first.toNat, text.drop last.toNat, ?_, ?_, ?_⟩
      · rw [front, List.take_append_drop]
      · rw [List.length_take]
        omega
      · rw [front, List.length_take]
        omega
  · rintro ⟨front, behind, rfl, rfl, rfl⟩
    have inside : ¬ ((front.length : Int) < 0 ∨
        ((front ++ part ++ behind).length : Int) < (front ++ part).length ∨
        ((front ++ part).length : Int) < front.length) := by
      simp only [List.length_append]
      omega
    rw [substring, if_neg inside, Int.toNat_natCast, Int.toNat_natCast, List.take_left,
      List.drop_left]

/-- Positions that are in order and within a text have a part between them. -/
theorem substring_inside {text : List Char} {first last : Int}
    (inside : 0 ≤ first ∧ first ≤ last ∧ last ≤ text.length) :
    ∃ part, substring text first last = .ok part :=
  ⟨_, if_neg (by omega)⟩

/-- Other positions are a fault. -/
theorem substring_outside {text : List Char} {first last : Int}
    (outside : ¬ (0 ≤ first ∧ first ≤ last ∧ last ≤ text.length)) :
    substring text first last = .error (.substringRange first last text.length) :=
  if_pos (by omega)

section

variable {text : List Char} {position : Int}

theorem substring_front (start : 0 ≤ position) (inside : position ≤ text.length) :
    substring text 0 position = .ok (text.take position.toNat) := by
  refine substring_eq_ok.mpr ⟨[], text.drop position.toNat, by simp, rfl, ?_⟩
  rw [List.nil_append, List.length_take]
  omega

theorem substring_back (start : 0 ≤ position) (inside : position ≤ text.length) :
    substring text position text.length = .ok (text.drop position.toNat) := by
  refine substring_eq_ok.mpr ⟨text.take position.toNat, [], by simp, ?_, by simp⟩
  rw [List.length_take]
  omega

end

/-- Texts are told by the steps that give them, and these from faults. -/
theorem ofExcept_eq_pure {result : Except Fault (List Char)} {part : String} :
    Run.ofExcept (result.map ofChars) = pure (.string part) ↔ result = .ok part.toList := by
  constructor
  · intro same
    have here := congrFun same {}
    cases result with
    | error cause => cases here
    | ok chars =>
      injection here with value
      injection value with value
      rw [← value, String.toList_ofList]
  · rintro rfl
    show pure (Value.string (String.ofList part.toList)) = _
    rw [String.ofList_toList]

/-- Whether a wanted text stands at a position of a text: it is the part of its length there. -/
def StandsAt (wanted text : String) (position : Int) : Prop :=
  callMethod (.string text) "substring" [.int position, .int (position + wanted.length)] =
    pure (.string wanted)

/-- Positions count the characters in front. -/
theorem standsAt_iff {wanted text : String} {position : Int} :
    StandsAt wanted text position ↔
      ∃ place, StandsIn wanted.toList text.toList place ∧ (place : Int) = position := by
  rw [StandsAt, callMethod_substring, ofExcept_eq_pure, substring_eq_ok]
  constructor
  · rintro ⟨front, behind, split, place, -⟩
    exact ⟨front.length, ⟨front, behind, split, rfl⟩, place⟩
  · rintro ⟨_, ⟨front, behind, split, rfl⟩, rfl⟩
    exact ⟨front, behind, split, rfl, by simp [String.length_toList]⟩

theorem standsAt_natCast {wanted text : String} {place : Nat} :
    StandsAt wanted text place ↔ StandsIn wanted.toList text.toList place := by
  rw [standsAt_iff]
  constructor
  · rintro ⟨same, stands, equal⟩
    rwa [← Int.ofNat_inj.mp equal]
  · exact fun stands => ⟨place, stands, rfl⟩

theorem setOf_standsAt (wanted text : String) :
    {position | StandsAt wanted text position} =
      (Nat.cast : Nat → Int) '' {place | StandsIn wanted.toList text.toList place} :=
  Set.ext fun _ => standsAt_iff

/-- A character is the part of one character at its position. -/
theorem charAt_inside {text : List Char} {index : Int}
    (inside : 0 ≤ index ∧ index < text.length) :
    charAt text index = substring text index (index + 1) := by
  obtain ⟨part, cut⟩ := @substring_inside text index (index + 1) (by omega)
  obtain ⟨front, behind, rfl, rfl, last⟩ := substring_eq_ok.mp cut
  have single : part.length = 1 := by
    rw [List.length_append] at last
    omega
  obtain ⟨c, rfl⟩ := List.length_eq_one_iff.mp single
  rw [cut, charAt, if_pos inside.1]
  simp

/-- Other positions are a fault. -/
theorem charAt_outside {text : List Char} {index : Int}
    (outside : ¬ (0 ≤ index ∧ index < text.length)) :
    charAt text index = .error (.charAtRange index) := by
  have missing : (if 0 ≤ index then text[index.toNat]? else none) = none := by
    rw [ite_eq_right_iff]
    exact fun start => List.getElem?_eq_none (by omega)
  rw [charAt, missing]

/-! ### Cutting -/

/-- How the methods that cut a text agree on positions. -/
structure Cuts (text : String) : Prop where
  length : callMethod (.string text) "length" [] = pure (.int text.length)
  /-- A part has as many characters in front of it as its first position says, and ends at the
  last. -/
  part : ∀ first last : Int, 0 ≤ first → first ≤ last → last ≤ text.length →
    ∃ front part behind, text = front ++ part ++ behind ∧ (front.length : Int) = first ∧
      ((front ++ part).length : Int) = last ∧
      callMethod (.string text) "substring" [.int first, .int last] = pure (.string part)
  partFault : ∀ first last : Int, ¬ (0 ≤ first ∧ first ≤ last ∧ last ≤ text.length) →
    callMethod (.string text) "substring" [.int first, .int last] =
      Run.fault (.substringRange first last text.length)
  halves : ∀ position : Int, 0 ≤ position → position ≤ text.length → ∃ front back,
    callMethod (.string text) "substring" [.int 0, .int position] = pure (.string front) ∧
      callMethod (.string text) "substring" [.int position] = pure (.string back) ∧
      callMethod (.string front) "concat" [.string back] = pure (.string text)
  halfFault : ∀ position : Int, ¬ (0 ≤ position ∧ position ≤ text.length) →
    callMethod (.string text) "substring" [.int position] =
      Run.fault (.substringRange position text.length text.length)
  charAt : ∀ index : Int, 0 ≤ index → index < text.length →
    callMethod (.string text) "charAt" [.int index] =
      callMethod (.string text) "substring" [.int index, .int (index + 1)]
  charAtFault : ∀ index : Int, ¬ (0 ≤ index ∧ index < text.length) →
    callMethod (.string text) "charAt" [.int index] = Run.fault (.charAtRange index)

theorem cuts (text : String) : Cuts text where
  length := rfl
  part first last start order inside := by
    rw [← String.length_toList] at inside
    obtain ⟨part, cut⟩ := substring_inside ⟨start, order, inside⟩
    obtain ⟨front, behind, split, firstLength, lastLength⟩ := substring_eq_ok.mp cut
    refine ⟨String.ofList front, String.ofList part, String.ofList behind, ?_, ?_, ?_, ?_⟩
    · rw [← String.ofList_append, ← String.ofList_append, ← split, String.ofList_toList]
    · rwa [String.length_ofList]
    · rwa [← String.ofList_append, String.length_ofList]
    · rw [callMethod_substring, cut]
      rfl
  partFault first last outside := by
    rw [← String.length_toList] at outside ⊢
    rw [callMethod_substring, substring_outside outside]
    rfl
  halves position start inside := by
    rw [← String.length_toList] at inside
    refine ⟨String.ofList (text.toList.take position.toNat),
      String.ofList (text.toList.drop position.toNat), ?_, ?_, ?_⟩
    · rw [callMethod_substring, substring_front start inside]
      rfl
    · rw [callMethod_substring_one, callMethod_substring, ← String.length_toList,
        substring_back start inside]
      rfl
    · rw [callMethod_concat, ← String.ofList_append, List.take_append_drop, String.ofList_toList]
  halfFault position outside := by
    rw [callMethod_substring_one, callMethod_substring, ← String.length_toList,
      substring_outside]
    · rfl
    · rw [String.length_toList]
      omega
  charAt index start inside := by
    rw [← String.length_toList] at inside
    rw [callMethod_charAt, callMethod_substring, charAt_inside ⟨start, inside⟩]
  charAtFault index outside := by
    rw [← String.length_toList] at outside
    rw [callMethod_charAt, charAt_outside outside]
    rfl

/-! ### Finding -/

/-- Whether a step answers a question. -/
def Answers (step : Run Value) (question : Prop) : Prop :=
  ∃ answer, step = pure (.bool answer) ∧ (answer = true ↔ question)

/-- Whether a wanted text is found in a text, at the first and at the last of its positions. -/
def FoundIn (wanted text : String) : Prop :=
  callMethod (.string text) "contains" [.string wanted] = pure (.bool true) ∧
    ∃ first last : Int,
      callMethod (.string text) "indexOf" [.string wanted] = pure (.int first) ∧
        IsLeast {position | StandsAt wanted text position} first ∧
      callMethod (.string text) "lastIndexOf" [.string wanted] = pure (.int last) ∧
        IsGreatest {position | StandsAt wanted text position} last

/-- Whether a wanted text is found nowhere in a text, and has no position there. -/
def MissingIn (wanted text : String) : Prop :=
  callMethod (.string text) "contains" [.string wanted] = pure (.bool false) ∧
    callMethod (.string text) "indexOf" [.string wanted] = pure (.int (-1)) ∧
    callMethod (.string text) "lastIndexOf" [.string wanted] = pure (.int (-1)) ∧
    ∀ position, ¬ StandsAt wanted text position

section

variable (wanted text : String)

theorem found_or_missing : FoundIn wanted text ∨ MissingIn wanted text := by
  have contains : callMethod (.string text) "contains" [.string wanted] =
      pure (.bool (indexOf? wanted.toList text.toList).isSome) := rfl
  have indexOf : callMethod (.string text) "indexOf" [.string wanted] =
      pure (positionOrMinusOne (indexOf? wanted.toList text.toList)) := rfl
  have lastIndexOf : callMethod (.string text) "lastIndexOf" [.string wanted] =
      pure (positionOrMinusOne (lastIndexOf? wanted.toList text.toList)) := rfl
  rw [FoundIn, MissingIn, contains, indexOf, lastIndexOf, setOf_standsAt]
  cases found : indexOf? wanted.toList text.toList with
  | none =>
    have missing : lastIndexOf? wanted.toList text.toList = none := by
      by_contra present
      obtain ⟨last, there⟩ := Option.ne_none_iff_exists'.mp present
      exact indexOf?_ne_none (isGreatest_lastIndexOf? there).1 found
    rw [missing]
    refine .inr ⟨rfl, rfl, rfl, fun position stands => ?_⟩
    obtain ⟨place, standsThere, -⟩ := standsAt_iff.mp stands
    exact indexOf?_ne_none standsThere found
  | some first =>
    have least := isLeast_indexOf? found
    obtain ⟨last, there⟩ := Option.ne_none_iff_exists'.mp (lastIndexOf?_ne_none least.1)
    have mono : Monotone (Nat.cast : Nat → Int) := fun _ _ => Int.ofNat_le.mpr
    rw [there]
    exact .inl ⟨rfl, first, last, rfl, mono.map_isLeast least, rfl,
      mono.map_isGreatest (isGreatest_lastIndexOf? there)⟩

theorem startsWith_answers :
    Answers (callMethod (.string text) "startsWith" [.string wanted]) (StandsAt wanted text 0) := by
  refine ⟨Text.startsWith text.toList wanted.toList, rfl, ?_⟩
  rw [Text.startsWith, List.isPrefixOf_iff_prefix, ← standsIn_zero, ← standsAt_natCast]
  rfl

theorem endsWith_answers :
    Answers (callMethod (.string text) "endsWith" [.string wanted])
      (StandsAt wanted text (text.length - wanted.length)) := by
  refine ⟨Text.endsWith text.toList wanted.toList, rfl, ?_⟩
  rw [Text.endsWith, List.isSuffixOf_iff_suffix, suffix_iff_standsIn, ← standsAt_natCast,
    String.length_toList, String.length_toList]
  by_cases fits : wanted.length ≤ text.length
  · rw [Int.ofNat_sub fits]
    exact and_iff_right fits
  · refine iff_of_false (fun both => fits both.1) fun stands => ?_
    obtain ⟨place, -, same⟩ := standsAt_iff.mp stands
    omega

/-- **The methods of strings agree on positions.** A text falls into what is in front of a position
and what is behind it, and other positions are faults. Whatever is looked for, it is found where
cutting out gives it again and only there, at the first such position and at the last. -/
theorem positions_agree : Cuts text ∧ Cuts wanted ∧
    (FoundIn wanted text ∨ MissingIn wanted text) ∧
    Answers (callMethod (.string text) "startsWith" [.string wanted]) (StandsAt wanted text 0) ∧
    Answers (callMethod (.string text) "endsWith" [.string wanted])
      (StandsAt wanted text (text.length - wanted.length)) :=
  ⟨cuts text, cuts wanted, found_or_missing wanted text, startsWith_answers wanted text,
    endsWith_answers wanted text⟩

example : callMethod (.string "é😀aé") "lastIndexOf" [.string "é"] = pure (.int 3) := rfl

end

end FieldResolver.Template
