/-
**How a statement falls into text and placeholders.**

A placeholder stands at a colon outside quoted text that has no colon in front of it and a letter or
an underscore behind it, and its name goes as far as a name can. A statement falls into texts with
placeholders between them in just one way in which no placeholder is left in a text. The database
gets these texts as they are, with a question mark for each placeholder and the values in order.

* `Stands`: where a placeholder stands; `Plain`: a text in which none does;
* `Split`: texts with names between them; `Split.Of`: a split of a statement at its placeholders;
* `Split.Of.unique`, `of_pieces`: there is just one, and the scanner finds it;
* `Copied`: quoted text and casts; `pieces_copied`: the scanner passes them on;
* `bind_placeholders`: what a statement and the values of its variables make for the database.
-/

import FieldResolver.Proofs.Dict
import FieldResolver.Proofs.Runs
import FieldResolver.Source.Statement

namespace FieldResolver.Statement

/-! ### Where placeholders stand -/

/-- The quote of the quoted text that goes on behind a character, by the one in front of it. -/
def openBehind (quote : Option Char) (c : Char) : Option Char :=
  match quote with
  | some q => if c = q then none else some q
  | none => if isQuote c then some c else none

/-- The quote of the quoted text that goes on behind the front of a statement. -/
def openQuote (front : List Char) : Option Char := front.foldl openBehind none

/-- Whether a text goes on with no name. -/
def NameEnds (text : List Char) : Prop := ∀ c ∈ text.head?, isNameChar c = false

/-- Whether a colon and a name between the front and the back of a statement are a placeholder. -/
structure Stands (front name back : List Char) : Prop where
  outside : openQuote front = none
  apart : front.getLast? ≠ some ':'
  begins : startsName name = true
  named : ∀ c ∈ name, isNameChar c = true
  whole : NameEnds back

/-- Whether a placeholder starts at a character between the front and the rest of a statement. -/
structure Opens (front : List Char) (c : Char) (rest : List Char) : Prop where
  outside : openQuote front = none
  colon : c = ':'
  apart : front.getLast? ≠ some ':'
  begins : startsName rest = true

/-- Whether no placeholder stands in a text behind a front. -/
def Plain (front text : List Char) : Prop :=
  ∀ ahead name behind, text = ahead ++ ':' :: (name ++ behind) →
    ¬ Stands (front ++ ahead) name behind

/-! ### Splits -/

/-- A text, and further ones with a name in front of each. -/
structure Split where
  first : List Char
  rest : List (List Char × List Char)

namespace Split

/-- The texts with placeholders between them. -/
def joined (split : Split) : List Char :=
  split.first ++ split.rest.flatMap fun (name, text) => ':' :: (name ++ text)

/-- The texts with question marks between them. -/
def filled (split : Split) : List Char :=
  split.first ++ split.rest.flatMap fun (_, text) => '?' :: text

/-- The names in order. -/
def names (split : Split) : List String := split.rest.map fun (name, _) => String.ofList name

/-- **A split of a text behind a front at its placeholders**: all of them stand where they are, and
none stands in the texts between them. -/
structure Of (split : Split) (front text : List Char) : Prop where
  joined : split.joined = text
  stand : ∀ before name text after, split.rest = before ++ (name, text) :: after →
    Stands (front ++ Split.joined ⟨split.first, before⟩) name (Split.joined ⟨text, after⟩)
  first : Plain front split.first
  others : ∀ entry ∈ split.rest, Plain [] entry.2

/-- A character in front of a split. -/
def push (c : Char) (split : Split) : Split := { split with first := c :: split.first }

/-- A placeholder in front of a split. -/
def mark (name : List Char) (split : Split) : Split := ⟨[], (name, split.first) :: split.rest⟩

/-- The split that pieces make. -/
def ofPieces : List Piece → Split
  | [] => ⟨[], []⟩
  | .char c :: rest => (ofPieces rest).push c
  | .placeholder name :: rest => (ofPieces rest).mark name

@[simp] theorem joined_push (c : Char) (split : Split) : (split.push c).joined = c :: split.joined :=
  rfl

@[simp] theorem joined_mark (name : List Char) (split : Split) :
    (split.mark name).joined = ':' :: (name ++ split.joined) := by
  simp [mark, joined]

@[simp] theorem filled_push (c : Char) (split : Split) : (split.push c).filled = c :: split.filled :=
  rfl

@[simp] theorem filled_mark (name : List Char) (split : Split) :
    (split.mark name).filled = '?' :: split.filled := by
  simp [mark, filled]

theorem filled_ofPieces (pieces : List Piece) :
    (ofPieces pieces).filled = pieces.map Piece.sql := by
  induction pieces with
  | nil => rfl
  | cons piece rest ih => cases piece <;> simp [ofPieces, Piece.sql, ih]

theorem names_ofPieces (pieces : List Piece) :
    (ofPieces pieces).names = pieces.filterMap Piece.name? := by
  induction pieces with
  | nil => rfl
  | cons piece rest ih =>
    cases piece with
    | char c => exact ih
    | placeholder name => exact congrArg (String.ofList name :: ·) ih

end Split

/-! ### Characters of names -/

theorem isNameChar_of_quote {c : Char} (quotes : isQuote c = true) : isNameChar c = false := by
  have one : c = '\'' ∨ c = '"' ∨ c = Char.ofNat 0x60 := by
    simp only [isQuote, Bool.or_eq_true, beq_iff_eq, or_assoc] at quotes
    exact quotes.imp_right (.imp_right fun same => Char.toNat_inj.mp same)
  rcases one with rfl | rfl | rfl <;> decide +kernel

theorem isNameChar_colon : isNameChar ':' = false := by decide +kernel

theorem isNameChar_of_startsName {c : Char} {rest : List Char}
    (starts : startsName (c :: rest) = true) : isNameChar c = true := by
  simp only [startsName, isNameChar, Unicode.isAlphanumeric, Unicode.isAlphabetic, Bool.or_eq_true,
    beq_iff_eq] at starts ⊢
  refine starts.imp_right fun letter => ?_
  split at letter
  · rename_i ascii
    simp [ascii, Char.isAlphanum, letter]
  · rename_i ascii
    simp [ascii, letter]

/-- Names are no quotes and leave quoted text closed. -/
theorem openQuote_append_name {front name : List Char} (outside : openQuote front = none)
    (named : ∀ c ∈ name, isNameChar c = true) : openQuote (front ++ name) = none := by
  rw [openQuote, List.foldl_append, ← openQuote, outside]
  induction name with
  | nil => rfl
  | cons c rest ih =>
    obtain ⟨first, others⟩ := List.forall_mem_cons.mp named
    have unquoted : isQuote c = false := by
      refine Bool.eq_false_iff.mpr fun quotes => ?_
      rw [isNameChar_of_quote quotes] at first
      cases first
    rw [List.foldl_cons, openBehind]
    simp only [unquoted, Bool.false_eq_true, if_false]
    exact ih others

/-- Whether a text starts afresh behind a front: it does not begin in quoted text or behind a
colon. -/
structure Afresh (front : List Char) : Prop where
  outside : openQuote front = none
  apart : front.getLast? ≠ some ':'

theorem Stands.nonempty {front name back : List Char} (stands : Stands front name back) :
    name ≠ [] := by
  rintro rfl
  cases stands.begins

/-- Text behind a placeholder starts afresh. -/
theorem Stands.afresh {front name back : List Char} (stands : Stands front name back) :
    Afresh (front ++ ':' :: name) where
  outside := by
    have behindColon : openQuote (front ++ [':']) = none := by
      rw [openQuote, List.foldl_append, ← openQuote, stands.outside]
      rfl
    rw [List.append_cons]
    exact openQuote_append_name behindColon stands.named
  apart := by
    obtain ⟨others, c, same⟩ := (List.eq_nil_or_concat name).resolve_left stands.nonempty
    rw [same, List.concat_eq_append, ← List.cons_append, ← List.append_assoc, List.getLast?_concat]
    rintro ⟨⟩
    have inName := stands.named ':' (by rw [same]; simp)
    rw [isNameChar_colon] at inName
    cases inName

/-- Where a text starts afresh, the placeholders in it are those of the text alone. -/
theorem Afresh.stands_iff {front ahead name back : List Char} (afresh : Afresh front) :
    Stands (front ++ ahead) name back ↔ Stands ahead name back := by
  have quote : openQuote (front ++ ahead) = openQuote ahead := by
    rw [openQuote, List.foldl_append, ← openQuote, afresh.outside, openQuote]
  have last : (front ++ ahead).getLast? ≠ some ':' ↔ ahead.getLast? ≠ some ':' := by
    rcases List.eq_nil_or_concat ahead with rfl | ⟨others, c, rfl⟩
    · simpa using afresh.apart
    · simp
  exact ⟨fun ⟨outside, apart, begins, named, whole⟩ =>
      ⟨quote ▸ outside, last.mp apart, begins, named, whole⟩,
    fun ⟨outside, apart, begins, named, whole⟩ =>
      ⟨quote ▸ outside, last.mpr apart, begins, named, whole⟩⟩

theorem Afresh.plain_iff {front text : List Char} (afresh : Afresh front) :
    Plain front text ↔ Plain [] text := by
  unfold Plain
  simp only [afresh.stands_iff, List.nil_append]

/-! ### Where names end -/

section

variable {name text back more : List Char}

theorem nameEnds_dropWhile (text : List Char) : NameEnds (text.dropWhile isNameChar) :=
  Runs.stops_head isNameChar text

theorem takeWhile_name (named : ∀ c ∈ name, isNameChar c = true) (ends : NameEnds back) :
    (name ++ back).takeWhile isNameChar = name ∧ (name ++ back).dropWhile isNameChar = back :=
  Runs.of_append named ends

/-- A name in front of a text lies in any other front of the text that ends with a name's end. -/
theorem name_split (named : ∀ c ∈ name, isNameChar c = true) (whole : NameEnds back)
    (ends : NameEnds more) (same : name ++ back = text ++ more) :
    text = name ++ text.dropWhile isNameChar ∧ back = text.dropWhile isNameChar ++ more := by
  obtain ⟨taken, left⟩ := takeWhile_name named whole
  rw [same] at taken left
  rw [Runs.takeWhile_append ends] at taken
  refine ⟨?_, left.symm.trans (Runs.dropWhile_append ends text)⟩
  calc text = text.takeWhile isNameChar ++ text.dropWhile isNameChar :=
        List.takeWhile_append_dropWhile.symm
    _ = name ++ text.dropWhile isNameChar := by rw [taken]

end

/-! ### Just one split -/

namespace Split

variable {front text name : List Char} {split : Split} {c : Char}

/-- What follows a text of a split goes on with no name. -/
theorem ends_behind (rest : List (List Char × List Char)) :
    NameEnds (rest.flatMap fun (name, text) => ':' :: (name ++ text)) := by
  cases rest with
  | nil => exact fun _ member => nomatch member
  | cons entry rest =>
    rintro _ ⟨⟩
    exact isNameChar_colon

/-- The first placeholder of a split, and what follows it. -/
theorem Of.cons {first behind : List Char} {rest : List (List Char × List Char)}
    (split : Of ⟨first, (name, behind) :: rest⟩ front text) :
    Stands (front ++ first) name (Split.joined ⟨behind, rest⟩) ∧
      Of ⟨behind, rest⟩ (front ++ first ++ ':' :: name) (Split.joined ⟨behind, rest⟩) := by
  have stands : Stands (front ++ first) name (Split.joined ⟨behind, rest⟩) := by
    simpa [Split.joined] using split.stand [] name behind rest rfl
  refine ⟨stands, rfl, fun before other text after same => ?_, ?_, ?_⟩
  · have further := split.stand ((name, behind) :: before) other text after
      (congrArg ((name, behind) :: ·) same)
    simpa [Split.joined] using further
  · exact stands.afresh.plain_iff.mpr (split.others _ List.mem_cons_self)
  · exact fun entry member => split.others entry (List.mem_cons_of_mem _ member)

/-- The first text of a split is no longer than that of another one: else the first placeholder of
the other one would be left in it. -/
theorem Of.first_le {other : Split} (left : split.Of front text) (right : other.Of front text) :
    other.first.length ≤ split.first.length := by
  obtain ⟨first, rest⟩ := split
  obtain ⟨further, others⟩ := other
  by_contra longer
  have same := left.joined.trans right.joined.symm
  simp only [Split.joined] at same
  obtain ⟨more, longer', same⟩ | ⟨more, shorter, _⟩ := List.append_eq_append_iff.mp same
  · cases rest with
    | nil =>
      have none := List.append_eq_nil_iff.mp same.symm
      simp [longer', none.1] at longer
    | cons entry rest =>
      obtain ⟨name, behind⟩ := entry
      have stands := left.cons.1
      cases more with
      | nil => simp [longer'] at longer
      | cons c more =>
        simp only [List.flatMap_cons, List.cons_append, List.cons.injEq, List.append_assoc] at same
        obtain ⟨inside, _⟩ := name_split stands.named stands.whole (ends_behind others) same.2
        refine right.first first name (more.dropWhile isNameChar) ?_
          { stands with whole := nameEnds_dropWhile more }
        rw [longer', ← same.1, ← inside]
  · simp only [shorter, List.length_append] at longer
    omega

/-- The first texts of two splits are the same. -/
theorem Of.first_eq {other : Split} (left : split.Of front text) (right : other.Of front text) :
    split.first = other.first ∧
      (split.rest.flatMap fun (name, text) => ':' :: (name ++ text)) =
        other.rest.flatMap fun (name, text) => ':' :: (name ++ text) :=
  List.append_inj (left.joined.trans right.joined.symm)
    (Nat.le_antisymm (right.first_le left) (left.first_le right))

/-- **There is just one split** of a text at its placeholders. -/
theorem Of.unique {other : Split} (left : split.Of front text) (right : other.Of front text) :
    split = other := by
  obtain ⟨first, rest⟩ := split
  obtain ⟨first', others⟩ := other
  induction rest generalizing front text first first' others with
  | nil =>
    obtain ⟨rfl, tails⟩ := left.first_eq right
    cases others with
    | nil => rfl
    | cons => cases tails
  | cons entry rest ih =>
    obtain ⟨rfl, tails⟩ := left.first_eq right
    cases others with
    | nil => cases tails
    | cons other others =>
      obtain ⟨name, behind⟩ := entry
      obtain ⟨name', behind'⟩ := other
      obtain ⟨stands, below⟩ := left.cons
      obtain ⟨stands', below'⟩ := right.cons
      have tails : name ++ Split.joined ⟨behind, rest⟩ = name' ++ Split.joined ⟨behind', others⟩ := by
        simpa [Split.joined] using tails
      have here := takeWhile_name stands.named stands.whole
      have there := takeWhile_name stands'.named stands'.whole
      rw [tails, there.1, there.2] at here
      obtain ⟨rfl, joined⟩ := here
      rw [joined] at below'
      cases ih _ below _ _ below'
      rfl

/-! ### What the scanner finds -/

theorem Of.nil (front : List Char) : Of ⟨[], []⟩ front [] where
  joined := rfl
  stand before name text after same := by cases before <;> cases same
  first ahead name behind same := by cases ahead <;> cases same
  others _ member := nomatch member

theorem Of.push {c : Char} {rest : List Char} (below : split.Of (front ++ [c]) rest)
    (opens : ¬ Opens front c rest) : (split.push c).Of front (c :: rest) where
  joined := by rw [joined_push, below.joined]
  stand before name text after same := by
    simpa [Split.joined, Split.push] using below.stand before name text after same
  first := by
    intro ahead name behind same stands
    cases ahead with
    | nil =>
      obtain ⟨rfl, first⟩ := List.cons.inj same
      rw [List.append_nil] at stands
      refine opens ⟨stands.outside, rfl, stands.apart, ?_⟩
      obtain ⟨letter, name, rfl⟩ := List.exists_cons_of_ne_nil stands.nonempty
      rw [← below.joined, Split.joined, first]
      exact stands.begins
    | cons d ahead =>
      obtain ⟨rfl, first⟩ := List.cons.inj same
      exact below.first ahead name behind first (by simpa using stands)
  others := below.others

theorem Of.mark {rest : List Char} (below : split.Of (front ++ ':' :: name) rest)
    (stands : Stands front name rest) : (split.mark name).Of front (':' :: (name ++ rest)) where
  joined := by rw [joined_mark, below.joined]
  stand before other text after same := by
    cases before with
    | nil =>
      cases same
      rw [← below.joined] at stands
      simpa [Split.joined, Split.mark] using stands
    | cons entry before =>
      obtain ⟨rfl, others⟩ := List.cons.inj same
      simpa [Split.joined, Split.mark] using below.stand before other text after others
  first ahead name behind same := by
    cases ahead <;> cases same
  others := by
    rintro entry (_ | ⟨_, member⟩)
    · exact stands.afresh.plain_iff.mp below.first
    · exact below.others entry member

end Split

/-- The pieces of a text behind a front. -/
def piecesBehind (front text : List Char) : List Piece :=
  scanFrom (openQuote front) (front.getLast? == some ':') text

theorem openQuote_concat (front : List Char) (c : Char) :
    openQuote (front ++ [c]) = openBehind (openQuote front) c := by
  rw [openQuote, List.foldl_append]
  rfl

/-- Inside quoted text it does not matter what is in front. -/
theorem scanFrom_quoted (quote : Char) (one other : Bool) (text : List Char) :
    scanFrom (some quote) one text = scanFrom (some quote) other text := by
  cases text <;> simp only [scanFrom]

/-- What is in front matters at a colon only. -/
theorem piecesBehind_eq {front text : List Char} {quote : Option Char} {behindColon : Bool}
    (same : quote = openQuote front)
    (colon : quote = none → behindColon = (front.getLast? == some ':')) :
    scanFrom quote behindColon text = piecesBehind front text := by
  rw [piecesBehind, ← same]
  cases quote with
  | none => rw [colon rfl]
  | some quote => exact scanFrom_quoted _ _ _ _

theorem isQuote_of_open {front : List Char} {quote : Char} (inside : openQuote front = some quote) :
    isQuote quote = true := by
  suffices every : ∀ start : Option Char, (∀ q ∈ start, isQuote q = true) →
      ∀ q ∈ front.foldl openBehind start, isQuote q = true from
    every none (fun _ member => nomatch member) quote inside
  clear inside
  induction front with
  | nil => exact fun start quotes => quotes
  | cons c rest ih =>
    refine fun start quotes => ih _ fun q member => ?_
    cases start with
    | none =>
      rw [openBehind] at member
      split at member
      · cases member
        assumption
      · cases member
    | some before =>
      rw [openBehind] at member
      split at member
      · cases member
      · exact quotes q member

/-- A character at which no placeholder starts is a piece. -/
theorem piecesBehind_char {front rest : List Char} {c : Char} (opens : ¬ Opens front c rest) :
    piecesBehind front (c :: rest) = .char c :: piecesBehind (front ++ [c]) rest := by
  have open' := openQuote_concat front c
  have last : (front ++ [c]).getLast? = some c := List.getLast?_concat
  rw [piecesBehind]
  cases quote : openQuote front with
  | some q =>
    rw [quote, openBehind] at open'
    simp only [scanFrom]
    rw [piecesBehind_eq open'.symm fun closed => ?_]
    rw [last]
    split at closed
    · rename_i same
      refine (beq_eq_false_iff_ne.mpr fun colon => ?_).symm
      have quotes := isQuote_of_open quote
      rw [← same, Option.some.inj colon] at quotes
      cases quotes
    · cases closed
  | none =>
    rw [quote, openBehind] at open'
    simp only [scanFrom]
    by_cases quotes : isQuote c = true
    · rw [if_pos quotes] at open' ⊢
      rw [piecesBehind_eq open'.symm fun closed => absurd closed (Option.some_ne_none c)]
    · rw [if_neg quotes] at open' ⊢
      rw [if_neg, piecesBehind_eq open'.symm fun _ => ?_]
      · rw [last]
        rfl
      · simp only [Bool.and_eq_true, decide_eq_true_eq, Bool.not_eq_true', beq_eq_false_iff_ne]
        rintro ⟨⟨colon, apart⟩, begins⟩
        exact opens ⟨quote, colon, apart, begins⟩

/-- A placeholder is a piece. -/
theorem piecesBehind_placeholder {front name back : List Char} (stands : Stands front name back) :
    piecesBehind front (':' :: (name ++ back)) =
      .placeholder name :: piecesBehind (front ++ ':' :: name) back := by
  obtain ⟨taken, left⟩ := takeWhile_name stands.named stands.whole
  have apart := beq_eq_false_iff_ne.mpr stands.apart
  have begins : startsName (name ++ back) = true := by
    obtain ⟨letter, name, rfl⟩ := List.exists_cons_of_ne_nil stands.nonempty
    exact stands.begins
  rw [piecesBehind, stands.outside, apart]
  simp only [scanFrom]
  rw [if_neg (by decide), if_pos (by rw [begins]; rfl), taken, left,
    piecesBehind_eq stands.afresh.outside.symm fun _ => ?_]
  exact (beq_eq_false_iff_ne.mpr stands.afresh.apart).symm

theorem Opens.stands {front rest : List Char} {c : Char} (opens : Opens front c rest) :
    Stands front (rest.takeWhile isNameChar) (rest.dropWhile isNameChar) where
  outside := opens.outside
  apart := opens.apart
  begins := by
    have begins := opens.begins
    cases rest with
    | nil => cases begins
    | cons c rest =>
      rw [List.takeWhile_cons_of_pos (isNameChar_of_startsName begins)]
      exact begins
  named _ := List.mem_takeWhile_imp
  whole := nameEnds_dropWhile rest

/-- A law of texts behind fronts that goes from the rest of a text to one with a character or a
placeholder more. -/
theorem induction_on_pieces {holds : List Char → List Char → Prop} (nil : ∀ front, holds front [])
    (char : ∀ front c rest, ¬ Opens front c rest → holds (front ++ [c]) rest →
      holds front (c :: rest))
    (placeholder : ∀ front name back, Stands front name back →
      holds (front ++ ':' :: name) back → holds front (':' :: (name ++ back)))
    (front text : List Char) : holds front text := by
  match text with
  | [] => exact nil front
  | c :: rest =>
    by_cases opens : Opens front c rest
    · have all := placeholder _ _ _ opens.stands
        (induction_on_pieces nil char placeholder _ (rest.dropWhile isNameChar))
      rwa [List.takeWhile_append_dropWhile, ← opens.colon] at all
    · exact char front c rest opens (induction_on_pieces nil char placeholder _ rest)
termination_by text.length
decreasing_by
  · have shorter := (List.dropWhile_suffix (l := rest) isNameChar).length_le
    rw [List.length_cons]
    exact Nat.lt_succ_of_le shorter
  · exact Nat.lt_succ_self _

theorem piecesBehind_nil (front : List Char) : piecesBehind front [] = [] := by
  rw [piecesBehind]
  simp only [scanFrom]

/-- **The scanner splits a text at its placeholders.** -/
theorem ofPieces_piecesBehind (front text : List Char) :
    (Split.ofPieces (piecesBehind front text)).Of front text := by
  induction front, text using induction_on_pieces with
  | nil front =>
    rw [piecesBehind_nil]
    exact .nil front
  | char front c rest opens ih =>
    rw [piecesBehind_char opens]
    exact ih.push opens
  | placeholder front name back stands ih =>
    rw [piecesBehind_placeholder stands]
    exact ih.mark stands

/-! ### Text that is copied -/

/-- Text that stands between the front and the back of a statement and is no placeholder: quoted
text, which may lack its end, and a cast. -/
inductive Copied (front : List Char) : List Char → List Char → Prop where
  | quoted {quote : Char} {inside back : List Char} (outside : openQuote front = none)
      (quotes : isQuote quote = true) (unquoted : quote ∉ inside) :
      Copied front (quote :: (inside ++ [quote])) back
  | unclosed {quote : Char} {inside : List Char} (outside : openQuote front = none)
      (quotes : isQuote quote = true) (unquoted : quote ∉ inside) :
      Copied front (quote :: inside) []
  | cast {name back : List Char} (outside : openQuote front = none)
      (named : ∀ c ∈ name, isNameChar c = true) : Copied front (':' :: ':' :: name) back

theorem Copied.ends {front copied back : List Char} (copies : Copied front copied back) :
    NameEnds (copied ++ back) := by
  cases copies with
  | quoted _ quotes | unclosed _ quotes =>
    rintro _ ⟨⟩
    exact isNameChar_of_quote quotes
  | cast =>
    rintro _ ⟨⟩
    exact isNameChar_colon

theorem NameEnds.append {text back : List Char} (ends : NameEnds text) (behind : NameEnds back) :
    NameEnds (text ++ back) := by
  cases text with
  | nil => exact behind
  | cons c rest => exact ends

/-- Where a placeholder starts does not depend on what goes on with no name. -/
theorem startsName_append {text back : List Char} (ends : NameEnds back)
    (begins : startsName (text ++ back) = true) : startsName text = true := by
  cases text with
  | nil =>
    cases back with
    | nil => cases begins
    | cons c more =>
      have inName := isNameChar_of_startsName begins
      rw [ends c rfl] at inName
      cases inName
  | cons => exact begins

/-- A text and what follows it fall into pieces apart if the latter goes on with no name. -/
theorem piecesBehind_append (front text : List Char) {back : List Char} (ends : NameEnds back) :
    piecesBehind front (text ++ back) =
      piecesBehind front text ++ piecesBehind (front ++ text) back := by
  induction front, text using induction_on_pieces with
  | nil front => rw [piecesBehind_nil, List.append_nil, List.nil_append, List.nil_append]
  | char front c rest opens ih =>
    have opens' : ¬ Opens front c (rest ++ back) := fun further =>
      opens { further with begins := startsName_append ends further.begins }
    rw [List.cons_append, piecesBehind_char opens', piecesBehind_char opens, ih, List.append_assoc]
    rfl
  | placeholder front name rest stands ih =>
    have stands' : Stands front name (rest ++ back) :=
      { stands with whole := stands.whole.append ends }
    rw [List.cons_append, List.append_assoc, piecesBehind_placeholder stands',
      piecesBehind_placeholder stands, ih, List.append_assoc, List.cons_append]
    rfl

/-- Inside quoted text all characters are pieces up to the quote that ends it. -/
theorem piecesBehind_quoted {front inside : List Char} {quote : Char} (back : List Char)
    (isOpen : openQuote front = some quote) (unquoted : quote ∉ inside) :
    piecesBehind front (inside ++ back) =
        inside.map .char ++ piecesBehind (front ++ inside) back ∧
      openQuote (front ++ inside) = some quote := by
  induction inside generalizing front with
  | nil => simp [isOpen]
  | cons c rest ih =>
    obtain ⟨other, others⟩ := not_or.mp (List.mem_cons.not.mp unquoted)
    have opens : ¬ Opens front c (rest ++ back) := fun opens =>
      nomatch isOpen.symm.trans opens.outside
    have further : openQuote (front ++ [c]) = some quote := by
      rw [openQuote_concat, isOpen, openBehind, if_neg (Ne.symm other)]
    obtain ⟨pieces, isOpen⟩ := ih further others
    rw [List.cons_append, piecesBehind_char opens, pieces]
    simpa using isOpen

theorem piecesBehind_named {front name : List Char} (back : List Char) 
    (outside : openQuote front = none) (named : ∀ c ∈ name, isNameChar c = true) :
    piecesBehind front (name ++ back) = name.map .char ++ piecesBehind (front ++ name) back := by
  induction name generalizing front with
  | nil => simp
  | cons c rest ih =>
    obtain ⟨first, others⟩ := List.forall_mem_cons.mp named
    have opens : ¬ Opens front c (rest ++ back) := fun opens => by
      rw [opens.colon, isNameChar_colon] at first
      cases first
    have closed : openQuote (front ++ [c]) = none :=
      openQuote_append_name outside (List.forall_mem_singleton.mpr first)
    rw [List.cons_append, piecesBehind_char opens, ih closed others]
    simp

/-- A quote that opens quoted text is a piece, and so is the text up to a quote that ends it. -/
theorem piecesBehind_opened {front inside : List Char} {quote : Char} (back : List Char)
    (outside : openQuote front = none) (quotes : isQuote quote = true) (unquoted : quote ∉ inside) :
    piecesBehind front (quote :: (inside ++ back)) =
        (quote :: inside).map .char ++ piecesBehind (front ++ quote :: inside) back ∧
      openQuote (front ++ quote :: inside) = some quote := by
  have opens : ¬ Opens front quote (inside ++ back) := fun opens => by
    rw [opens.colon] at quotes
    cases quotes
  have isOpen : openQuote (front ++ [quote]) = some quote := by
    rw [openQuote_concat, outside, openBehind]
    exact if_pos quotes
  obtain ⟨pieces, further⟩ := piecesBehind_quoted back isOpen unquoted
  rw [piecesBehind_char opens, pieces]
  simpa using further

/-- **The scanner passes on quoted text and casts.** -/
theorem piecesBehind_copied {front copied back : List Char} (copies : Copied front copied back) :
    piecesBehind front (copied ++ back) =
      copied.map .char ++ piecesBehind (front ++ copied) back := by
  cases copies with
  | @quoted quote inside _ outside quotes unquoted =>
    obtain ⟨pieces, isOpen⟩ := piecesBehind_opened (quote :: back) outside quotes unquoted
    have opens : ¬ Opens (front ++ quote :: inside) quote back := fun opens =>
      nomatch isOpen.symm.trans opens.outside
    rw [List.cons_append, List.append_assoc, List.singleton_append, pieces,
      piecesBehind_char opens]
    simp
  | unclosed outside quotes unquoted =>
    have pieces := (piecesBehind_opened [] outside quotes unquoted).1
    rwa [List.append_nil] at pieces ⊢
  | @cast name _ outside named =>
    have first : ¬ Opens front ':' (':' :: (name ++ back)) := fun opens => nomatch opens.begins
    have second : ¬ Opens (front ++ [':']) ':' (name ++ back) := fun opens =>
      opens.apart List.getLast?_concat
    have closed : openQuote (front ++ [':'] ++ [':']) = none := by
      rw [openQuote_concat, openQuote_concat, outside]
      rfl
    rw [List.cons_append, List.cons_append, piecesBehind_char first, piecesBehind_char second,
      piecesBehind_named back closed named]
    simp

/-! ### Statements and the values of their variables -/

section

variable {bindings others : Dict Json}

/-- A variable has no value if neither its name nor the name behind a colon is a key. -/
theorem lookUp?_eq_none {name : String} :
    lookUp? bindings name = none ↔
      bindings.get? (":" ++ name) = none ∧ bindings.get? name = none := by
  rw [lookUp?]
  cases bindings.get? (":" ++ name) <;> simp

/-- What the values of the variables make of a statement with a split: the first name without a
value, or the texts with question marks and the values of the names in order. -/
inductive Binds (split : Split) (bindings : Dict Json) : Except String Bound → Prop where
  | missing {before after : List String} {name : String}
      (names : split.names = before ++ name :: after)
      (known : ∀ other ∈ before, (lookUp? bindings other).isSome)
      (unmarked : bindings.get? name = none) (marked : bindings.get? (":" ++ name) = none) :
      Binds split bindings (.error name)
  | complete {values : List Json} (entries : split.names.map (lookUp? bindings) = values.map some) :
      Binds split bindings (.ok { sql := String.ofList split.filled, values })

/-- The values of a name and further ones. -/
theorem valuesOf_cons (name : String) (rest : List String) :
    valuesOf bindings (name :: rest) =
      (lookUp? bindings name).elim (.error name) fun value =>
        (valuesOf bindings rest).map (value :: ·) := by
  rw [valuesOf]
  cases lookUp? bindings name with
  | none => rfl
  | some value => cases valuesOf bindings rest <;> rfl

/-- The values of names, or the first name that has none. -/
theorem valuesOf_eq (bindings : Dict Json) (names : List String) :
    (∃ values, valuesOf bindings names = .ok values ∧
      names.map (lookUp? bindings) = values.map some) ∨
    ∃ before name after, valuesOf bindings names = .error name ∧ names = before ++ name :: after ∧
      (∀ other ∈ before, (lookUp? bindings other).isSome) ∧ lookUp? bindings name = none := by
  induction names with
  | nil => exact .inl ⟨[], rfl, rfl⟩
  | cons name rest ih =>
    rw [valuesOf_cons]
    cases found : lookUp? bindings name with
    | none => exact .inr ⟨[], name, rest, rfl, rfl, fun _ member => (nomatch member), found⟩
    | some value =>
      obtain ⟨values, same, entries⟩ | ⟨before, other, after, missing, rfl, known, unknown⟩ := ih
      · refine .inl ⟨value :: values, by rw [same]; rfl, ?_⟩
        rw [List.map_cons, List.map_cons, entries, found]
      · refine .inr ⟨name :: before, other, after, by rw [missing]; rfl, rfl, ?_, unknown⟩
        exact List.forall_mem_cons.mpr ⟨Option.isSome_of_eq_some found, known⟩

theorem lookUp?_isSome (name : String) :
    (lookUp? bindings name).isSome = true ↔
      ":" ++ name ∈ Dict.keys bindings ∨ name ∈ Dict.keys bindings := by
  have present (key : String) : (bindings.get? key).isSome = true ↔ key ∈ Dict.keys bindings := by
    rw [Option.isSome_iff_ne_none, Ne, Dict.get?_eq_none_iff, not_not]
  rw [lookUp?, ← present, ← present]
  cases bindings.get? (":" ++ name) <;> simp

/-- Whether all names have values, and else the first that has none, depends on the keys only. -/
theorem valuesOf_of_keys {α : Type} (content : α) (names : List String)
    (same : ∀ key, key ∈ Dict.keys bindings ↔ key ∈ Dict.keys others) :
    (valuesOf bindings names).map (fun _ => content) =
      (valuesOf others names).map fun _ => content := by
  have onward (found : Except String (List Json)) (value : Json) :
      (found.map (value :: ·)).map (fun _ => content) = found.map fun _ => content := by
    cases found <;> rfl
  induction names with
  | nil => rfl
  | cons name rest ih =>
    have known : (lookUp? bindings name).isSome = (lookUp? others name).isSome := by
      rw [Bool.eq_iff_iff, lookUp?_isSome, lookUp?_isSome, same, same]
    rw [valuesOf_cons, valuesOf_cons]
    cases found : lookUp? bindings name <;> cases found' : lookUp? others name <;>
      simp only [found, found', Option.isSome_some, Option.isSome_none, reduceCtorEq] at known
    · rfl
    · rw [Option.elim, Option.elim, onward, onward, ih]

/-- The text for the database. -/
theorem map_sql_bind (text : String) (bindings : Dict Json) :
    (bind text bindings).map Bound.sql =
      (valuesOf bindings ((scan text).filterMap Piece.name?)).map fun _ => sql (scan text) := by
  rw [bind]
  cases valuesOf bindings ((scan text).filterMap Piece.name?) <;> rfl

end

/-- **What a statement makes for the database.** It falls into texts and placeholders in just one
way. The first name without a value is the error, if there is one; else the text for the database
has a question mark for each placeholder, and the values are those of the names in order. Quoted
text and casts are passed on between what is made of the text in front of them and of the text
behind them. For any two sets of variables with the same keys the text, or the name, is the same. -/
theorem bind_placeholders (statement : String) :
    ∃ split : Split, split.Of [] statement.toList ∧
      (∀ other : Split, other.Of [] statement.toList → other = split) ∧
      (∀ bindings, Binds split bindings (bind statement bindings)) ∧
      (∀ front copied back, statement.toList = front ++ (copied ++ back) →
        Copied front copied back →
        ∃ ahead behind : Split, ahead.Of [] front ∧ behind.Of (front ++ copied) back ∧
          split.names = ahead.names ++ behind.names ∧
          split.filled = ahead.filled ++ (copied ++ behind.filled)) ∧
      ∀ bindings others : Dict Json, (∀ key, key ∈ Dict.keys bindings ↔ key ∈ Dict.keys others) →
        (bind statement bindings).map Bound.sql = (bind statement others).map Bound.sql := by
  have pieces : piecesBehind [] statement.toList = scan statement := rfl
  refine ⟨.ofPieces (scan statement), ofPieces_piecesBehind [] _, fun other here =>
    here.unique (ofPieces_piecesBehind [] _), fun bindings => ?_, ?_, fun bindings others same => ?_⟩
  · have names := Split.names_ofPieces (scan statement)
    have filled := Split.filled_ofPieces (scan statement)
    obtain ⟨values, found, entries⟩ | ⟨before, name, after, missing, split, known, unknown⟩ :=
      valuesOf_eq bindings ((scan statement).filterMap Piece.name?)
    · have bound : bind statement bindings = .ok { sql := sql (scan statement), values } := by
        rw [bind, found]
        rfl
      rw [bound, sql, ← filled]
      exact .complete (names ▸ entries)
    · have error : bind statement bindings = .error name := by
        rw [bind, missing]
        rfl
      rw [error]
      have both := lookUp?_eq_none.mp unknown
      exact .missing (names.trans split) known both.2 both.1
  · intro front copied back same copies
    have parts := piecesBehind_append [] front copies.ends
    rw [← same, pieces, List.nil_append, piecesBehind_copied copies] at parts
    have silent : (copied.map Piece.char).filterMap Piece.name? = [] := by
      rw [List.filterMap_map]
      exact List.filterMap_eq_nil_iff.mpr fun _ _ => rfl
    have unchanged : (copied.map Piece.char).map Piece.sql = copied := by
      rw [List.map_map]
      exact List.map_id copied
    refine ⟨_, _, ofPieces_piecesBehind [] front, ofPieces_piecesBehind (front ++ copied) back, ?_⟩
    simp only [Split.names_ofPieces, Split.filled_ofPieces, parts, List.filterMap_append,
      List.map_append, silent, unchanged, List.nil_append, and_self]
  · rw [map_sql_bind, map_sql_bind]
    exact valuesOf_of_keys _ _ same

/-- A quoted colon and a cast stay, and a variable may stand in two places. -/
example :
    (bind "select ':a', b::text from t where c = :c or d = :c" [("c", .null), (":a", .null)]).map
        (fun bound => (bound.sql, bound.values.length)) =
      .ok ("select ':a', b::text from t where c = ? or d = ?", 2) := by
  decide +kernel

end FieldResolver.Statement
