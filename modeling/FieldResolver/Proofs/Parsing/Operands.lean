/-
**What written operands are read as.**

Literals, negations, lists, ranges, maps and references, each from its parts: the parts of a list
are texts that are read as its items, and nothing else is known of them.

* `Operand.of_primary`: what starts no negation is read by the parser of the innermost operands;
* `operand_constant`, `operand_number`, `operand_string`, `Operand.not`, `Operand.neg`: what has no
  parts or one;
* `Item`, `operand_list`, `operand_range`, `operand_map`: what stands in brackets and braces;
* `Follows`, `operand_reference`: references.
-/

import FieldResolver.Proofs.Parsing.Levels

namespace FieldResolver.Template.Parser

/-! ### Behind a token -/

theorem Ends.forall {p : Char → Prop} {rest : List Char} (ends : Ends rest) (space : p ' ')
    (close : p ')') : ∀ c ∈ rest.head?, p c := by
  intro c member
  rcases ends c member with rfl | rfl
  · exact space
  · exact close

/-! ### Literals -/

/-- What starts no negation is an operand if the parser of the innermost operands reads it. -/
theorem Operand.of_primary {c : Char} {more : List Char} {value : Expr} (opens : Opens c)
    (noBang : c ≠ '!') (noMinus : c ≠ '-')
    (noWord : ∀ rest, eatWord? ['n', 'o', 't'] (c :: more ++ rest) = none)
    (read : ∀ rest, Ends rest →
      Settles (fun budget => primary budget (c :: more ++ rest)) (.ok (value, rest))) :
    Operand (c :: more) value := fun rest ends =>
  (read rest ends).step (unary_primary opens.1 noBang noMinus (noWord rest))

/-- What starts no reference, no string and no bracket is a number or a word. -/
theorem primary_scalar {c : Char} (plain : c ∉ ['$', '\'', '"', '[', '\x7b', '(']) (budget : Nat)
    (rest : List Char) :
    primary (budget + 1) (c :: rest) =
      if Decimal.isDigit c then number (c :: rest) else constant (c :: rest) := by
  rw [primary]
  all_goals
    rintro rfl
    exact plain (by decide)

theorem constant_append {word : List Char} {value : Expr} (known : (word, value) ∈ constants)
    {rest : List Char} (ends : Ends rest) : constant (word ++ rest) = .ok (value, rest) := by
  cases rest with
  | nil => fin_cases known <;> rfl
  | cons c rest => rcases ends c rfl with rfl | rfl <;> fin_cases known <;> rfl

theorem operand_constant {word : List Char} {value : Expr} (known : (word, value) ∈ constants) :
    Operand word value := by
  have read := fun rest (ends : Ends rest) => constant_append known ends
  fin_cases known
  all_goals
    refine .of_primary (by decide) (by decide) (by decide) (fun _ => rfl) fun rest ends => ?_
    refine .of_eq fun budget => ?_
    rw [List.cons_append, primary_scalar (by decide)]
    exact read rest ends

theorem number_append {digits : List Char} (formed : Digits digits)
    (fits : Decimal.natOfDigits digits 0 < 0x8000000000000000) {rest : List Char}
    (ends : Ends rest) :
    number (digits ++ rest) = .ok (.int (Decimal.natOfDigits digits 0), rest) := by
  have stop : rest.takeWhile Decimal.isDigit = [] ∧ rest.dropWhile Decimal.isDigit = rest := by
    cases rest with
    | nil => exact ⟨rfl, rfl⟩
    | cons c rest => rcases ends c rfl with rfl | rfl <;> exact ⟨rfl, rfl⟩
  unfold number
  simp only [List.takeWhile_append_of_pos formed.all, List.dropWhile_append_of_pos formed.all,
    stop.1, stop.2, List.append_nil, if_pos fits]
  split
  · exact absurd rfl (ends.forall (p := fun c => c ≠ '.') (by decide) (by decide) '.' rfl)
  · rfl

/-- A natural number that fits 64 bits. -/
theorem operand_number {value : Nat} (fits : value < 0x8000000000000000) :
    Operand (Decimal.natDigits value) (.int value) := by
  obtain ⟨c, more, same, digit⟩ := Decimal.head_natDigits value
  have formed : Digits (Decimal.natDigits value) :=
    ⟨by rw [same]; exact List.cons_ne_nil _ _, fun c member =>
      Decimal.isDigit_of_isDigit (Decimal.allDigits_natDigits value c member)⟩
  have whole : Decimal.natOfDigits (Decimal.natDigits value) 0 = value :=
    Decimal.numeral_natDigits value
  have read := fun rest (ends : Ends rest) => number_append formed (by rwa [whole]) ends
  rw [whole, same] at read
  rw [same]
  have other : ∀ d, d.isDigit = false → c ≠ d := by
    rintro d noDigit rfl
    rw [digit] at noDigit
    cases noDigit
  refine .of_primary (opens_of_isDigit digit) (other _ rfl) (other _ rfl) (fun rest => ?_)
    fun rest ends => .of_eq fun budget => ?_
  · have noWord : Text.dropFront? ['n', 'o', 't'] (c :: more ++ rest) = none :=
      if_neg (other 'n' rfl).symm
    rw [eatWord?, noWord]
  · have plain : c ∉ ['$', '\'', '"', '[', '\x7b', '('] := by
      simp [other]
    rw [List.cons_append, primary_scalar plain, if_pos (Decimal.isDigit_of_isDigit digit)]
    exact read rest ends

theorem quoted?_doubled (quote : Char) (content read : List Char) {rest : List Char}
    (shut : ∀ c ∈ rest.head?, c ≠ quote) :
    quoted? quote read (doubled quote content ++ quote :: rest) =
      some (read.reverse ++ content, rest) := by
  induction content generalizing read with
  | nil =>
    show quoted? quote read (quote :: rest) = _
    rw [quoted?.eq_def]
    simp only [if_true]
    cases rest with
    | nil => simp
    | cons c rest => simp [shut c rfl]
  | cons c content ih =>
    have split : doubled quote (c :: content) =
      (if c = quote then [quote, quote] else [c]) ++ doubled quote content := rfl
    rw [split]
    split
    · rename_i same
      rw [List.cons_append, List.cons_append, List.cons_append, quoted?.eq_def]
      simp only [List.cons_append, List.nil_append, if_true]
      rw [ih, same]
      simp
    · rename_i other
      rw [List.cons_append, List.cons_append, quoted?.eq_def]
      simp only [if_neg other, List.nil_append, ih]
      simp

theorem operand_string (text : String) : Operand (inQuotes '\'' text.toList) (.string text) := by
  refine .of_primary (by decide) (by decide) (by decide) (fun _ => rfl) fun rest ends => ?_
  have read : quoted? '\'' [] (doubled '\'' text.toList ++ '\'' :: rest) = _ :=
    quoted?_doubled '\'' text.toList [] (ends.forall (by decide) (by decide))
  have split : '\'' :: (doubled '\'' text.toList ++ ['\'']) ++ rest =
      '\'' :: (doubled '\'' text.toList ++ '\'' :: rest) := by simp
  refine .of_eq fun budget => ?_
  rw [split, primary]
  simp only [read, List.reverse_nil, List.nil_append, String.ofList_toList]

/-! ### Negations -/

theorem Operand.behind_space {text rest : List Char} {value : Expr} (operand : Operand text value)
    (ends : Ends rest) :
    Settles (fun budget => unary budget (' ' :: (text ++ rest))) (.ok (value, rest)) := by
  refine (operand rest ends).congr fun budget => ?_
  rw [unary, unary, skipBlanks_space]

theorem Operand.neg {text : List Char} {value : Expr} (operand : Operand text value) :
    Operand ('-' :: ' ' :: text) (.neg value) := by
  intro rest ends
  refine .step (fun budget => ?_) (.bind (fun _ found => .ok (.neg found.1, found.2))
    (operand.behind_space ends) (.of_eq fun _ => rfl))
  rw [List.cons_append, unary]
  rfl

theorem Operand.not {text : List Char} {value : Expr} (words : Wording)
    (operand : Operand text value) : Operand (words.not.text ++ ' ' :: text) (.not value) := by
  intro rest ends
  refine .step (fun budget => ?_) (.bind (fun _ found => .ok (.not found.1, found.2))
    (operand.behind_space ends) (.of_eq fun _ => rfl))
  rcases words.negates with same | same
  all_goals
    rw [same, unary]
    rfl

/-! ### Brackets and braces -/

/-- A text that is read as an expression of any kind, and can be told from a closing bracket. -/
structure Item (text : List Char) (value : Expr) : Prop where
  stands : Stands 0 text value
  opening : Opening text

/-- What is read of an item in front of what closes or separates. -/
theorem Item.read {text : List Char} {value : Expr} (item : Item text value) {c : Char}
    (closing : Closing c) (rest : List Char) :
    ∃ left, skipBlanks left = c :: rest ∧
      Settles (fun budget => expr budget 0 (skipBlanks (' ' :: (text ++ ' ' :: c :: rest))))
        (.ok (value, left)) := by
  obtain ⟨left, blank, read⟩ := item.stands (' ' :: c :: rest) (ends_space _)
    (loose_of_closing closing 0 rest)
  rw [skipBlanks_space, skipBlanks_visible closing.visible] at blank
  exact ⟨left, blank, by rwa [skipBlanks_opening item.opening]⟩

/-- Behind an item stands a comma or what closes the brackets. -/
theorem afterCommas_append (texts : List (List Char)) {close : Char} (closing : Closing close)
    (rest : List Char) :
    ∃ c more, Closing c ∧ (c = ',' ∨ c = close) ∧
      afterCommas texts ++ close :: rest = c :: more := by
  cases texts with
  | nil => exact ⟨close, rest, closing, .inr rfl, rfl⟩
  | cons text texts => exact ⟨',', _, by decide, .inl rfl, rfl⟩

theorem settles_items {texts : List (List Char)} {values : List Expr}
    (all : List.Forall₂ Item texts values) (read : List Expr) {left rest : List Char}
    (here : skipBlanks left = afterCommas texts ++ ']' :: rest) :
    Settles (fun budget => items budget read left) (.ok (read.reverse ++ values, rest)) := by
  induction all generalizing read left with
  | nil =>
    refine .of_eq fun budget => ?_
    rw [items, here]
    simp [afterCommas]
  | @cons text value texts values item _ ih =>
    obtain ⟨c, more, closing, _, same⟩ := afterCommas_append texts (by decide : Closing ']') rest
    obtain ⟨behind, blank, first⟩ := item.read closing more
    have below := ih (value :: read) (blank.trans same.symm)
    rw [List.reverse_cons, List.append_assoc, List.singleton_append] at below
    refine .step (fun budget => ?_)
      (.bind (fun budget found => items budget (found.1 :: read) found.2) first below)
    have split : skipBlanks left = ',' :: ' ' :: (text ++ ' ' :: c :: more) := by
      rw [here, ← same]
      simp [afterCommas]
    rw [items, split]
    rfl

/-- What stands behind the first expression in brackets: the last one of a range, or other items. -/
def behindFirst (budget : Nat) (first : Expr × List Char) :
    Except SyntaxError (Expr × List Char) :=
  match Text.dropFront? ['.', '.'] (skipBlanks first.2) with
  | some rest =>
    expr budget 0 (skipBlanks rest) >>= fun last =>
      expect ']' (skipBlanks last.2) >>= fun rest => .ok (.range first.1 last.1, rest)
  | none => items budget [first.1] first.2 >>= fun all => .ok (.list all.1, all.2)

theorem listOrRange_opening {text : List Char} (opening : Opening text) (rest : List Char)
    (budget : Nat) :
    listOrRange (budget + 1) (' ' :: (text ++ rest)) =
      expr budget 0 (skipBlanks (' ' :: (text ++ rest))) >>= behindFirst budget := by
  rw [listOrRange]
  obtain ⟨c, more, rfl, opens⟩ := opening
  simp only [skipBlanks_opening ⟨c, more, rfl, opens⟩ rest]
  split
  · exact absurd (List.cons.inj ‹_›).1 opens.2.2.1
  · rfl

/-- What is read in brackets is an operand. -/
theorem Operand.of_brackets {text : List Char} {value : Expr}
    (read : ∀ rest, Settles (fun budget => listOrRange budget (' ' :: (text ++ ']' :: rest)))
      (.ok (value, rest))) :
    Operand ('[' :: ' ' :: (text ++ [']'])) value := by
  refine .of_primary (by decide) (by decide) (by decide) (fun _ => rfl) fun rest _ => ?_
  have split : '[' :: ' ' :: (text ++ [']']) ++ rest = '[' :: ' ' :: (text ++ ']' :: rest) := by
    simp
  rw [split]
  refine (read rest).step fun budget => ?_
  rw [primary]

/-- **A list is read from its items.** -/
theorem operand_list {texts : List (List Char)} {values : List Expr}
    (all : List.Forall₂ Item texts values) :
    Operand ('[' :: ' ' :: (spaced texts ++ [']'])) (.list values) := by
  refine .of_brackets fun rest => ?_
  cases all with
  | nil =>
    refine .of_eq fun budget => ?_
    rw [listOrRange]
    rfl
  | @cons text value texts values item others =>
    obtain ⟨c, more, closing, which, same⟩ :=
      afterCommas_append texts (by decide : Closing ']') rest
    obtain ⟨behind, blank, first⟩ := item.read closing more
    have split : spaced (text :: texts) ++ ']' :: rest = text ++ ' ' :: c :: more := by
      rw [← same]
      simp [spaced]
    have noRange : Text.dropFront? ['.', '.'] (skipBlanks behind) = none := by
      rw [blank]
      rcases which with rfl | rfl <;> rfl
    rw [split]
    refine .step (listOrRange_opening item.opening _) (.bind behindFirst first ?_)
    refine .congr (fun budget => ?_) (.bind (fun _ all => .ok (.list all.1, all.2))
      (settles_items others [value] (blank.trans same.symm)) (.of_eq fun _ => rfl))
    rw [behindFirst, noRange]

/-- **A range is read from its ends.** -/
theorem operand_range {first last : List Char} {low high : Expr} (item : Item first low)
    (other : Item last high) :
    Operand ('[' :: ' ' :: (first ++ ' ' :: '.' :: '.' :: ' ' :: (last ++ [' ', ']'])))
      (.range low high) := by
  have whole : first ++ ' ' :: '.' :: '.' :: ' ' :: (last ++ [' ', ']']) =
      first ++ ' ' :: '.' :: '.' :: ' ' :: (last ++ [' ']) ++ [']'] := by simp
  rw [whole]
  refine .of_brackets fun rest => ?_
  have split : first ++ ' ' :: '.' :: '.' :: ' ' :: (last ++ [' ']) ++ ']' :: rest =
      first ++ ' ' :: '.' :: '.' :: ' ' :: (last ++ ' ' :: ']' :: rest) := by simp
  obtain ⟨left, blank, read⟩ := item.read (by decide : Closing '.')
    ('.' :: ' ' :: (last ++ ' ' :: ']' :: rest))
  obtain ⟨behind, shut, second⟩ := other.read (by decide : Closing ']') rest
  rw [split]
  refine .step (listOrRange_opening item.opening _) (.bind behindFirst read ?_)
  refine .congr (fun budget => ?_) (.bind (fun _ found => expect ']' (skipBlanks found.2) >>=
    fun rest => .ok (.range low found.1, rest)) second (.of_eq fun _ => ?_))
  · rw [behindFirst, blank]
    rfl
  · rw [shut]
    rfl

/-! ### Calls and maps -/

/-- What stands behind an argument: a comma with others, or the end of the call. -/
def behindArgument (budget : Nat) (read : List Expr) (argument : Expr × List Char) :
    Except SyntaxError (List Expr × List Char) :=
  match skipBlanks argument.2 with
  | ',' :: rest => moreArguments budget (argument.1 :: read) rest
  | ')' :: rest => .ok ((argument.1 :: read).reverse, rest)
  | text => fail .argumentSeparator text

theorem moreArguments_succ (budget : Nat) (read : List Expr) (text : List Char) :
    moreArguments (budget + 1) read text =
      expr budget 0 (skipBlanks text) >>= behindArgument budget read := by
  rw [moreArguments]
  rfl

theorem settles_moreArguments {text : List Char} {value : Expr} {texts : List (List Char)}
    {values : List Expr} (item : Item text value) (others : List.Forall₂ Item texts values)
    (read : List Expr) (rest : List Char) :
    Settles (fun budget =>
        moreArguments budget read (' ' :: (text ++ ' ' :: (afterCommas texts ++ ')' :: rest))))
      (.ok (read.reverse ++ value :: values, rest)) := by
  induction others generalizing text value read with
  | nil =>
    obtain ⟨left, blank, first⟩ := item.read (by decide : Closing ')') rest
    refine .step (fun budget => moreArguments_succ budget read _)
      (.bind (fun budget => behindArgument budget read) first (.of_eq fun _ => ?_))
    rw [behindArgument, blank]
    simp
  | @cons next second texts values following _ ih =>
    have split : ' ' :: (text ++ ' ' :: (afterCommas (next :: texts) ++ ')' :: rest)) =
        ' ' :: (text ++
          ' ' :: ',' :: ' ' :: (next ++ ' ' :: (afterCommas texts ++ ')' :: rest))) := by
      simp [afterCommas]
    obtain ⟨left, blank, first⟩ := item.read (by decide : Closing ',')
      (' ' :: (next ++ ' ' :: (afterCommas texts ++ ')' :: rest)))
    have below := ih following (value :: read)
    rw [List.reverse_cons, List.append_assoc, List.singleton_append] at below
    rw [split]
    refine .step (fun budget => moreArguments_succ budget read _)
      (.bind (fun budget => behindArgument budget read) first (below.congr fun budget => ?_))
    rw [behindArgument, blank]
    rfl

theorem settles_arguments {texts : List (List Char)} {values : List Expr}
    (all : List.Forall₂ Item texts values) (rest : List Char) :
    Settles (fun budget => arguments budget (' ' :: (spaced texts ++ ')' :: rest)))
      (.ok (values, rest)) := by
  cases all with
  | nil =>
    refine .of_eq fun budget => ?_
    rw [arguments]
    rfl
  | @cons text value texts values item others =>
    have split : ' ' :: (spaced (text :: texts) ++ ')' :: rest) =
        ' ' :: (text ++ ' ' :: (afterCommas texts ++ ')' :: rest)) := by simp [spaced]
    rw [split]
    have read : Settles (fun budget => moreArguments budget []
        (skipBlanks (' ' :: (text ++ ' ' :: (afterCommas texts ++ ')' :: rest)))))
        (.ok (value :: values, rest)) := by
      refine (settles_moreArguments item others [] rest).congr fun budget => ?_
      rw [moreArguments_succ, moreArguments_succ, skipBlanks_skipBlanks]
    refine read.step fun budget => ?_
    obtain ⟨c, more, rfl, opens⟩ := item.opening
    rw [arguments, skipBlanks_opening item.opening]
    split
    · exact absurd (List.cons.inj ‹_›).1 opens.2.1
    · rfl

/-- A text that is read as an entry of a map. -/
inductive EntryItem : List Char → Entry → Prop
  | mk {label text : List Char} {key value : Expr} (first : Item label key)
      (second : Item text value) : EntryItem (label ++ ' ' :: ':' :: ' ' :: text) (.mk key value)

theorem EntryItem.opening {text : List Char} {entry : Entry} (item : EntryItem text entry) :
    Opening text := by
  cases item with
  | mk first _ =>
    obtain ⟨c, more, rfl, opens⟩ := first.opening
    exact ⟨c, _, rfl, opens⟩

/-- What stands behind the value of an entry: a comma with others, or the end of the map. -/
def behindValue (budget : Nat) (read : List Entry) (key : Expr) (value : Expr × List Char) :
    Except SyntaxError (List Entry × List Char) :=
  match skipBlanks value.2 with
  | ',' :: rest => entries budget (.mk key value.1 :: read) rest
  | '\x7d' :: rest => .ok ((Entry.mk key value.1 :: read).reverse, rest)
  | text => fail .mapSeparator text

/-- What stands behind the key of an entry. -/
def behindKey (budget : Nat) (read : List Entry) (key : Expr × List Char) :
    Except SyntaxError (List Entry × List Char) :=
  expect ':' (skipBlanks key.2) >>= fun rest =>
    expr budget 0 (skipBlanks rest) >>= behindValue budget read key.1

theorem entries_succ (budget : Nat) (read : List Entry) (text : List Char) :
    entries (budget + 1) read text = expr budget 0 (skipBlanks text) >>= behindKey budget read := by
  rw [entries]
  rfl

/-- What is read of an entry in front of what closes or separates. -/
theorem settles_entry {text : List Char} {key value : Expr} (item : EntryItem text (.mk key value))
    (read : List Entry) {c : Char} (closing : Closing c) {rest : List Char}
    {answer : Except SyntaxError (List Entry × List Char)}
    (below : ∀ behind, skipBlanks behind = c :: rest →
      Settles (fun budget => behindValue budget read key (value, behind)) answer) :
    Settles (fun budget => entries budget read (' ' :: (text ++ ' ' :: c :: rest))) answer := by
  obtain @⟨label, text, _, _, first, second⟩ := item
  obtain ⟨left, blank, here⟩ := first.read (by decide : Closing ':')
    (' ' :: (text ++ ' ' :: c :: rest))
  obtain ⟨behind, shut, there⟩ := second.read closing rest
  have split : ' ' :: (label ++ ' ' :: ':' :: ' ' :: text ++ ' ' :: c :: rest) =
      ' ' :: (label ++ ' ' :: ':' :: ' ' :: (text ++ ' ' :: c :: rest)) := by simp
  rw [split]
  refine .step (fun budget => entries_succ budget read _)
    (.bind (fun budget => behindKey budget read) here ?_)
  refine .congr (fun budget => ?_)
    (.bind (fun budget => behindValue budget read key) there (below behind shut))
  rw [behindKey, blank]
  rfl

theorem settles_entries {text : List Char} {entry : Entry} {texts : List (List Char)}
    {all : List Entry} (item : EntryItem text entry) (others : List.Forall₂ EntryItem texts all)
    (read : List Entry) (rest : List Char) :
    Settles (fun budget =>
        entries budget read (' ' :: (text ++ ' ' :: (afterCommas texts ++ '\x7d' :: rest))))
      (.ok (read.reverse ++ entry :: all, rest)) := by
  induction others generalizing text entry read with
  | nil =>
    obtain ⟨key, value⟩ := entry
    refine settles_entry (c := '\x7d') item read (by decide) fun behind shut => .of_eq fun _ => ?_
    rw [behindValue, shut]
    simp
  | @cons next second texts values following _ ih =>
    have split : ' ' :: (text ++ ' ' :: (afterCommas (next :: texts) ++ '\x7d' :: rest)) =
        ' ' :: (text ++
          ' ' :: ',' :: ' ' :: (next ++ ' ' :: (afterCommas texts ++ '\x7d' :: rest))) := by
      simp [afterCommas]
    obtain ⟨key, value⟩ := entry
    have below := ih following (.mk key value :: read)
    rw [List.reverse_cons, List.append_assoc, List.singleton_append] at below
    rw [split]
    refine settles_entry item read (by decide) fun behind comma => below.congr fun budget => ?_
    rw [behindValue, comma]
    rfl

/-- **A map is read from its entries.** -/
theorem operand_map {texts : List (List Char)} {all : List Entry}
    (items : List.Forall₂ EntryItem texts all) :
    Operand ('\x7b' :: ' ' :: (spaced texts ++ ['\x7d'])) (.map all) := by
  refine .of_primary (by decide) (by decide) (by decide) (fun _ => rfl) fun rest _ => ?_
  cases items with
  | nil =>
    refine .of_eq fun budget => ?_
    rw [List.cons_append, primary]
    rfl
  | @cons text entry texts all item others =>
    have split : '\x7b' :: ' ' :: (spaced (text :: texts) ++ ['\x7d']) ++ rest =
        '\x7b' :: ' ' :: (text ++ ' ' :: (afterCommas texts ++ '\x7d' :: rest)) := by simp [spaced]
    have read : Settles (fun budget => entries budget []
        (skipBlanks (' ' :: (text ++ ' ' :: (afterCommas texts ++ '\x7d' :: rest)))))
        (.ok (entry :: all, rest)) := by
      refine (settles_entries item others [] rest).congr fun budget => ?_
      rw [entries_succ, entries_succ, skipBlanks_skipBlanks]
    rw [split]
    refine .step (fun budget => ?_) (.bind (fun _ all => .ok (.map all.1, all.2)) read
      (.of_eq fun _ => rfl))
    obtain ⟨c, more, same, opens⟩ := item.opening
    rw [primary]
    simp only [skipBlanks_opening item.opening]
    split
    · rename_i closed
      rw [same] at closed
      exact absurd (List.cons.inj closed).1 opens.2.2.2
    · rfl

/-! ### References -/

/-- Texts of segments, one behind the other. -/
inductive Follows : List Char → List Segment → Prop
  | nil : Follows [] []
  | property {label text : List Char} {path : List Segment} (named : IsName label)
      (below : Follows text path) :
      Follows ('.' :: (label ++ text)) (.property (String.ofList label) :: path)
  | index {text more : List Char} {key : Expr} {path : List Segment} (item : Item text key)
      (below : Follows more path) :
      Follows ('[' :: ' ' :: (text ++ ' ' :: ']' :: more)) (.index key :: path)
  | method {label text : List Char} {texts : List (List Char)} {values : List Expr}
      {path : List Segment} (named : IsName label) (all : List.Forall₂ Item texts values)
      (below : Follows text path) :
      Follows ('.' :: (label ++ '(' :: ' ' :: (spaced texts ++ ')' :: text)))
        (.method (String.ofList label) values :: path)

/-- A name in front of segments ends there, and no call is made of it. -/
theorem Follows.head {text : List Char} {path : List Segment} (follows : Follows text path)
    {rest : List Char} (ends : Ends rest) :
    ∀ c ∈ (text ++ rest).head?, isNameChar c = false ∧ c ≠ '(' := by
  cases follows with
  | nil => exact ends.forall (by decide) (by decide)
  | property | index | method =>
    rintro c ⟨⟩
    decide

theorem settles_segments {text : List Char} {path : List Segment} (follows : Follows text path)
    (read : List Segment) {rest : List Char} (ends : Ends rest) :
    Settles (fun budget => segments budget read (text ++ rest))
      (.ok (read.reverse ++ path, rest)) := by
  induction follows generalizing read with
  | nil =>
    refine .of_eq fun budget => ?_
    rw [List.append_nil]
    exact segments_end budget read (ends.forall (by decide) (by decide))
  | @property label text path named below ih =>
    have others := ih (.property (String.ofList label) :: read)
    rw [List.reverse_cons, List.append_assoc, List.singleton_append] at others
    refine others.step fun budget => ?_
    rw [List.cons_append, List.append_assoc]
    exact segments_property budget read named (below.head ends)
  | @index text more key path item below ih =>
    obtain ⟨left, blank, first⟩ := item.read (by decide : Closing ']') (more ++ rest)
    have split : '[' :: ' ' :: (text ++ ' ' :: ']' :: more) ++ rest =
        '[' :: ' ' :: (text ++ ' ' :: ']' :: (more ++ rest)) := by simp
    have others := ih (.index key :: read)
    rw [List.reverse_cons, List.append_assoc, List.singleton_append] at others
    rw [split]
    refine .step (fun budget => ?_) (.bind (fun budget found =>
      expect ']' (skipBlanks found.2) >>= fun rest => segments budget (.index found.1 :: read) rest)
      first (others.congr fun budget => ?_))
    · rw [segments]
    · rw [blank]
      rfl
  | @method label text texts values path named all below ih =>
    have split : '.' :: (label ++ '(' :: ' ' :: (spaced texts ++ ')' :: text)) ++ rest =
        '.' :: (label ++ '(' :: ' ' :: (spaced texts ++ ')' :: (text ++ rest))) := by simp
    have others := ih (.method (String.ofList label) values :: read)
    rw [List.reverse_cons, List.append_assoc, List.singleton_append] at others
    rw [split]
    exact .step (fun budget => segments_method budget read named)
      (.bind (fun budget found =>
        segments budget (.method (String.ofList label) found.1 :: read) found.2)
        (settles_arguments all _) others)

/-- What an operand at a `$` comes to, with the reference that is read there. -/
def ofReference (text : List Char) :
    Option ((String × List Segment) × List Char) → Except SyntaxError (Expr × List Char)
  | some found => .ok (.reference found.1.1 found.1.2, found.2)
  | none => fail .loneDollar text

/-- **A reference is read from its name and its segments.** -/
theorem operand_reference {root text : List Char} {path : List Segment} (named : IsName root)
    (follows : Follows text path) :
    Operand ('$' :: (root ++ text)) (.reference (String.ofList root) path) := by
  refine .of_primary (by decide) (by decide) (by decide) (fun _ => rfl) fun rest ends => ?_
  have split : '$' :: (root ++ text) ++ rest = '$' :: (root ++ (text ++ rest)) := by simp
  have read : Settles (fun budget => reference? budget ('$' :: (root ++ (text ++ rest))))
      (.ok (some ((String.ofList root, path), rest))) :=
    .step (fun budget =>
      reference?_name budget named fun c member => (follows.head ends c member).1)
      (.bind (fun _ found => .ok (some ((String.ofList root, found.1), found.2)))
        (settles_segments follows [] ends) (.of_eq fun _ => rfl))
  rw [split]
  refine .step (fun budget => ?_)
    (.bind (fun _ => ofReference ('$' :: (root ++ (text ++ rest)))) read (.of_eq fun _ => rfl))
  rw [primary]
  refine bind_congr fun found => ?_
  cases found <;> rfl

end FieldResolver.Template.Parser
