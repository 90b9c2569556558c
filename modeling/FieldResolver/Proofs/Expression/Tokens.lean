/-
**Tokens of expressions and their texts.**

Splitting a text into tokens undoes writing them one after another: any white space may stand
between two tokens, and some has to where the second one would go on with the first.

* `Token.chars`, `Token.Formed`, `Token.Ends`: how a token is written, which tokens are written, and
  what may stand behind one;
* `Spells`: the texts of a list of tokens;
* `tokens_eq_ok_iff`: a text is split into tokens just when it is one of their texts;
* `Spells.append`, `spells_spaced`: texts side by side, and the text with a space behind each token.
-/

import FieldResolver.Table.Token
import FieldResolver.Proofs.Fallible
import FieldResolver.Proofs.Runs

namespace FieldResolver.Table

open Fallible

/-! ### How tokens are written -/

/-- Whether a text is a word. -/
structure IsWord (text : List Char) : Prop where
  nonempty : text ≠ []
  all : ∀ c ∈ text, isWordChar c = true

/-- How a token is written. -/
def Token.chars : Token → List Char
  | .name placeholder | .value placeholder => placeholder.toList
  | .word text => text.toList
  | .sign written => written.text.toList
  | .openParen => ['(']
  | .closeParen => [')']
  | .comma => [',']

/-- Whether a token is one that can be written: its words are words, and it starts with no white
space. -/
def Token.Formed : Token → Prop
  | .name placeholder => ∃ word, IsWord word ∧ placeholder = String.ofList ('#' :: word)
  | .value placeholder => ∃ word, IsWord word ∧ placeholder = String.ofList (':' :: word)
  | .word text => IsWord text.toList ∧ ∀ c ∈ text.toList.head?, Text.isBlank c = false
  | .sign _ | .openParen | .closeParen | .comma => True

instance (text : List Char) : Decidable (IsWord text) :=
  decidable_of_iff (text ≠ [] ∧ text.all isWordChar = true)
    ⟨fun word => ⟨word.1, List.all_eq_true.mp word.2⟩,
      fun word => ⟨word.1, List.all_eq_true.mpr word.2⟩⟩

/-- A word that starts with no white space is a token. -/
theorem formed_word {text : String} (word : IsWord text.toList)
    (visible : text.toList.head?.any Text.isBlank = false) : (Token.word text).Formed := by
  refine ⟨word, fun c first => ?_⟩
  rw [first] at visible
  exact visible

/-- Whether all tokens of a list can be written. -/
def AllFormed (tokens : List Token) : Prop := ∀ token ∈ tokens, token.Formed

namespace AllFormed

variable {tokens others : List Token} {token : Token}

theorem nil : AllFormed [] := fun _ member => absurd member List.not_mem_nil

theorem cons (first : token.Formed) (formed : AllFormed tokens) : AllFormed (token :: tokens) :=
  List.forall_mem_cons.mpr ⟨first, formed⟩

theorem append (formed : AllFormed tokens) (behind : AllFormed others) :
    AllFormed (tokens ++ others) :=
  List.forall_mem_append.mpr ⟨formed, behind⟩

theorem flatMap {α : Type} {write : α → List Token} (formed : ∀ item, AllFormed (write item))
    (items : List α) : AllFormed (items.flatMap write) := by
  intro token member
  obtain ⟨item, -, inside⟩ := List.mem_flatMap.mp member
  exact formed item token inside

end AllFormed

/-- Whether a text starts with no character of a word. -/
def WordEnds (rest : List Char) : Prop := ∀ c ∈ rest.head?, isWordChar c = false

/-- Whether a text lets the token in front of it end. -/
def Token.Ends (rest : List Char) : Token → Prop
  | .name _ | .value _ | .word _ => WordEnds rest
  | .sign .lt => ∀ c ∈ rest.head?, c ≠ '>' ∧ c ≠ '='
  | .sign .gt => ∀ c ∈ rest.head?, c ≠ '='
  | .sign _ | .openParen | .closeParen | .comma => True

/-- Whether a text writes a list of tokens, with white space around them. -/
inductive Spells : List Token → List Char → Prop where
  | nil {blank : List Char} (white : ∀ c ∈ blank, Text.isBlank c = true) : Spells [] blank
  | cons {blank rest : List Char} {token : Token} {tokens : List Token}
      (white : ∀ c ∈ blank, Text.isBlank c = true) (formed : token.Formed) (ends : token.Ends rest)
      (others : Spells tokens rest) : Spells (token :: tokens) (blank ++ (token.chars ++ rest))

/-! ### One token -/

section

variable {word rest : List Char} {token : Token} {offset : Nat}

theorem takeWhile_word (all : ∀ c ∈ word, isWordChar c = true) (ends : WordEnds rest) :
    (word ++ rest).takeWhile isWordChar = word ∧ (word ++ rest).dropWhile isWordChar = rest :=
  Runs.of_append all ends

theorem wordEnds_dropWhile (text : List Char) : WordEnds (text.dropWhile isWordChar) :=
  Runs.stops_head isWordChar text

theorem isWord_takeWhile {text : List Char} (some : (text.takeWhile isWordChar).isEmpty = false) :
    IsWord (text.takeWhile isWordChar) :=
  ⟨by simpa using some, fun _ => List.mem_takeWhile_imp⟩

/-- What does not start a sign or a placeholder starts a word. -/
theorem firstToken_word {c : Char} (first : isWordChar c = true) (rest : List Char) :
    firstToken offset c rest =
      .ok (.word (String.ofList (c :: rest.takeWhile isWordChar)), rest.dropWhile isWordChar) := by
  unfold firstToken
  split
  case h_14 => exact if_pos first
  all_goals exact absurd first (by decide)

/-- A token has a text. -/
theorem Token.Formed.length_pos (formed : token.Formed) : 0 < token.chars.length := by
  cases token with
  | name placeholder | value placeholder =>
    obtain ⟨word, _, rfl⟩ := formed
    rw [Token.chars, String.toList_ofList]
    exact Nat.succ_pos _
  | word text => exact List.length_pos_iff.mpr formed.1.nonempty
  | sign written => cases written <;> decide
  | openParen | closeParen | comma => exact Nat.succ_pos _

/-- A token is taken from the front of its text. -/
theorem firstToken_chars (formed : token.Formed) (ends : token.Ends rest) :
    ∃ c more, token.chars ++ rest = c :: more ∧ Text.isBlank c = false ∧
      ∀ offset, firstToken offset c more = .ok (token, rest) := by
  cases token with
  | name placeholder =>
    obtain ⟨word, ⟨nonempty, all⟩, rfl⟩ := formed
    obtain ⟨taken, left⟩ := takeWhile_word all ends
    refine ⟨'#', word ++ rest, by rw [Token.chars, String.toList_ofList, List.cons_append],
      rfl, fun offset => ?_⟩
    have some : word.isEmpty = false := by simpa using nonempty
    simp only [firstToken, taken, left, some]
    rfl
  | value placeholder =>
    obtain ⟨word, ⟨nonempty, all⟩, rfl⟩ := formed
    obtain ⟨taken, left⟩ := takeWhile_word all ends
    refine ⟨':', word ++ rest, by rw [Token.chars, String.toList_ofList, List.cons_append],
      rfl, fun offset => ?_⟩
    have some : word.isEmpty = false := by simpa using nonempty
    simp only [firstToken, taken, left, some]
    rfl
  | word text =>
    obtain ⟨⟨nonempty, all⟩, visible⟩ := formed
    obtain ⟨c, more, shape⟩ := List.exists_cons_of_ne_nil nonempty
    rw [shape] at all visible
    obtain ⟨first, others⟩ := List.forall_mem_cons.mp all
    obtain ⟨taken, left⟩ := takeWhile_word others ends
    refine ⟨c, more ++ rest, by rw [Token.chars, shape, List.cons_append], visible c rfl,
      fun offset => ?_⟩
    rw [firstToken_word first, taken, left, ← shape, String.ofList_toList]
  | sign sign =>
    cases sign with
    | lt =>
      refine ⟨'<', rest, rfl, rfl, fun offset => ?_⟩
      cases rest with
      | nil => rfl
      | cons c more =>
        obtain ⟨notNe, notLe⟩ := ends c rfl
        simp [firstToken, notNe, notLe]
    | gt =>
      refine ⟨'>', rest, rfl, rfl, fun offset => ?_⟩
      cases rest with
      | nil => rfl
      | cons c more =>
        have notGe : c ≠ '=' := ends c rfl
        simp [firstToken, notGe]
    | eq | plus | minus | ne | le | ge => exact ⟨_, _, rfl, rfl, fun _ => rfl⟩
  | openParen | closeParen | comma => exact ⟨_, _, rfl, rfl, fun _ => rfl⟩

/-- What is taken from the front of a text is a token and its text. -/
theorem firstToken_ok {c : Char} {text : List Char} (visible : Text.isBlank c = false)
    (taken : firstToken offset c text = .ok (token, rest)) :
    token.Formed ∧ token.Ends rest ∧ c :: text = token.chars ++ rest := by
  have whole : text = text.takeWhile isWordChar ++ text.dropWhile isWordChar :=
    List.takeWhile_append_dropWhile.symm
  unfold firstToken at taken
  split at taken
  case h_4 | h_5 =>
    dsimp only at taken
    split at taken
    · cases taken
    · rename_i some
      rw [Bool.not_eq_true] at some
      cases taken
      refine ⟨⟨_, isWord_takeWhile some, rfl⟩, wordEnds_dropWhile text, ?_⟩
      rw [Token.chars, String.toList_ofList, List.cons_append, ← whole]
  case h_9 notNe notLe =>
    cases taken
    refine ⟨trivial, ?_, rfl⟩
    rintro c first
    obtain ⟨more, rfl⟩ := List.head?_eq_some_iff.mp first
    exact ⟨by rintro rfl; exact notNe _ rfl, by rintro rfl; exact notLe _ rfl⟩
  case h_10 notGe =>
    cases taken
    refine ⟨trivial, ?_, rfl⟩
    rintro c first rfl
    obtain ⟨more, rfl⟩ := List.head?_eq_some_iff.mp first
    exact notGe _ rfl
  case h_14 =>
    split at taken
    · rename_i first
      cases taken
      refine ⟨⟨⟨?_, ?_⟩, ?_⟩, wordEnds_dropWhile text, ?_⟩
      · simp
      · rw [String.toList_ofList]
        exact List.forall_mem_cons.mpr ⟨first, fun _ => List.mem_takeWhile_imp⟩
      · rw [String.toList_ofList]
        rintro _ ⟨⟩
        exact visible
      · rw [Token.chars, String.toList_ofList, List.cons_append, ← whole]
    · cases taken
  all_goals
    cases taken
    exact ⟨trivial, trivial, rfl⟩

end

/-! ### All tokens of a text -/

section

variable {length budget : Nat} {text : List Char} {read : List Token}

theorem tokensWithin_white {blank : List Char} (white : ∀ c ∈ blank, Text.isBlank c = true)
    (rest : List Char) :
    tokensWithin length (blank.length + budget) (blank ++ rest) =
      tokensWithin length budget rest := by
  induction blank with
  | nil => rw [List.length_nil, Nat.zero_add, List.nil_append]
  | cons c blank ih =>
    obtain ⟨first, others⟩ := List.forall_mem_cons.mp white
    rw [List.length_cons, Nat.add_right_comm, List.cons_append, tokensWithin, if_pos first,
      ih others]

theorem tokensWithin_token {c : Char} {more rest : List Char} {token : Token}
    (visible : Text.isBlank c = false)
    (taken : ∀ offset, firstToken offset c more = .ok (token, rest)) :
    tokensWithin length (budget + 1) (c :: more) =
      (tokensWithin length budget rest).map (token :: ·) := by
  rw [tokensWithin, if_neg (by rw [visible]; exact Bool.false_ne_true), taken]
  rfl

theorem tokensWithin_nil (length budget : Nat) : tokensWithin length budget [] = .ok [] := by
  cases budget <;> rfl

/-- A text of tokens is split into them. -/
theorem Spells.tokensWithin (spells : Spells read text) (enough : text.length ≤ budget) :
    tokensWithin length budget text = .ok read := by
  induction spells generalizing budget with
  | @nil blank white =>
    obtain ⟨more, rfl⟩ := Nat.exists_eq_add_of_le enough
    rw [← List.append_nil blank, List.length_append, List.length_nil, Nat.add_zero,
      tokensWithin_white white, tokensWithin_nil]
  | @cons blank rest token others white formed ends _ ih =>
    obtain ⟨c, more, shape, visible, taken⟩ := firstToken_chars formed ends
    have longer : rest.length ≤ more.length := by
      have some := formed.length_pos
      have same := congrArg List.length shape
      simp only [List.length_append, List.length_cons] at same
      omega
    rw [shape] at enough ⊢
    rw [List.length_append, List.length_cons] at enough
    obtain ⟨left, rfl⟩ : ∃ left, budget = blank.length + (left + 1) :=
      ⟨budget - blank.length - 1, by omega⟩
    rw [tokensWithin_white white, tokensWithin_token visible taken, ih (by omega)]
    rfl

/-- White space in front of a text changes nothing. -/
theorem Spells.white {c : Char} (spells : Spells read text) (white : Text.isBlank c = true) :
    Spells read (c :: text) := by
  cases spells with
  | nil others => exact .nil (List.forall_mem_cons.mpr ⟨white, others⟩)
  | cons others formed ends below =>
    exact .cons (List.forall_mem_cons.mpr ⟨white, others⟩) formed ends below

/-- What a text is split into are tokens that it writes. -/
theorem spells_of_tokensWithin (enough : text.length ≤ budget)
    (done : tokensWithin length budget text = .ok read) : Spells read text := by
  induction budget generalizing text read with
  | zero =>
    rw [List.eq_nil_of_length_eq_zero (Nat.le_zero.mp enough)] at done ⊢
    cases done
    exact .nil (List.forall_mem_nil _)
  | succ budget ih =>
    cases text with
    | nil =>
      cases done
      exact .nil (List.forall_mem_nil _)
    | cons c more =>
      have shorter : more.length ≤ budget := Nat.le_of_succ_le_succ enough
      rw [Table.tokensWithin] at done
      split at done
      · rename_i white
        exact (ih shorter done).white white
      · rename_i visible
        rw [Bool.not_eq_true] at visible
        obtain ⟨⟨token, rest⟩, taken, done⟩ := bind_ok done
        obtain ⟨others, below, same⟩ := bind_ok done
        cases same
        obtain ⟨formed, ends, whole⟩ := firstToken_ok visible taken
        have some := formed.length_pos
        have lengths := congrArg List.length whole
        simp only [List.length_append, List.length_cons] at lengths
        rw [whole]
        exact .cons (List.forall_mem_nil _) formed ends (ih (by omega) below)

/-- **A text is split into tokens just when it writes them.** -/
theorem tokens_eq_ok_iff : tokens text = .ok read ↔ Spells read text :=
  ⟨spells_of_tokensWithin (Nat.le_refl _), fun spells => spells.tokensWithin (Nat.le_refl _)⟩

/-! ### Texts of more tokens -/

/-- What starts with a space lets every token end. -/
theorem Token.ends_space (token : Token) (rest : List Char) : token.Ends (' ' :: rest) := by
  have word : WordEnds (' ' :: rest) := by
    rintro c ⟨⟩
    rfl
  match token with
  | .name _ | .value _ | .word _ => exact word
  | .sign .lt | .sign .gt =>
    rintro c ⟨⟩
    decide
  | .sign .eq | .sign .ne | .sign .le | .sign .ge | .sign .plus | .sign .minus => trivial
  | .openParen | .closeParen | .comma => trivial

/-- A token ends in front of a space wherever it ends in front of less. -/
theorem Token.Ends.append {token : Token} {rest : List Char} (ends : token.Ends rest)
    (more : List Char) : token.Ends (rest ++ ' ' :: more) := by
  cases rest with
  | nil => exact token.ends_space more
  | cons c rest =>
    match token with
    | .name _ | .value _ | .word _ => exact ends
    | .sign .lt | .sign .gt => exact ends
    | .sign .eq | .sign .ne | .sign .le | .sign .ge | .sign .plus | .sign .minus => trivial
    | .openParen | .closeParen | .comma => trivial

/-- Two texts with a space in between. -/
theorem Spells.append {others : List Token} {more : List Char} (spells : Spells read text)
    (behind : Spells others more) : Spells (read ++ others) (text ++ ' ' :: more) := by
  induction spells with
  | @nil blank white =>
    induction blank with
    | nil => exact behind.white rfl
    | cons c blank ih =>
      obtain ⟨first, rest⟩ := List.forall_mem_cons.mp white
      exact (ih rest).white first
  | @cons blank rest token _ white formed ends _ ih =>
    rw [List.append_assoc, List.append_assoc, List.cons_append]
    exact .cons white formed (ends.append more) ih

/-- The tokens of a text can be written. -/
theorem Spells.formed (spells : Spells read text) : AllFormed read := by
  induction spells with
  | nil => exact .nil
  | cons _ formed _ _ ih => exact .cons formed ih

/-- The text of tokens with a space behind each of them. -/
def spacedTokens (written : List Token) : List Char :=
  written.flatMap fun token => token.chars ++ [' ']

theorem spells_spaced {written : List Token} (formed : AllFormed written) :
    Spells written (spacedTokens written) := by
  induction written with
  | nil => exact .nil (by simp [spacedTokens])
  | cons token written ih =>
    obtain ⟨first, others⟩ := List.forall_mem_cons.mp formed
    have shape : spacedTokens (token :: written) =
        [] ++ (token.chars ++ ' ' :: spacedTokens written) := by simp [spacedTokens]
    rw [shape]
    exact .cons (by simp) first (token.ends_space _) ((ih others).white rfl)

end

end FieldResolver.Table
