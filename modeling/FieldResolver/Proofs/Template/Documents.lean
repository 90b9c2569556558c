/-
**The documents that templates write.**

A document is a written value with white space around it. Without commas in front of closing
brackets and braces it is read as it stands. With some it is refused first and then read without
them: just these commas are dropped, whatever stands in strings.

* `Tidies`: what dropping commas makes of a text in front of any other;
* `Inlay`: whether a text can stand in the gaps of a document, as every compact text can
  (`inlay_chars`);
* `tidies_write`: dropping commas tidies a written value up;
* `trim_write`: where a document starts and ends;
* `document_write`: what a document is read as.
-/

import FieldResolver.Proofs.Json.Compact
import FieldResolver.Template.Output

namespace FieldResolver.Template.Output

open Json (Apart Blank Body Label Padded ScalarText Solid Written closing commaSeparated following
  opens)

/-! ### Dropping commas -/

/-- Whether dropping commas makes one text of another, whatever follows. -/
def Tidies (text tidied : List Char) : Prop :=
  ∀ rest, dropCommas .outside (text ++ rest) = tidied ++ dropCommas .outside rest

theorem tidies_nil : Tidies [] [] := fun _ => rfl

theorem Tidies.append {text tidied more moreTidied : List Char} (first : Tidies text tidied)
    (second : Tidies more moreTidied) : Tidies (text ++ more) (tidied ++ moreTidied) := by
  intro rest
  rw [List.append_assoc, first, second, List.append_assoc]

/-- A character that neither separates nor quotes. -/
theorem Tidies.cons {c : Char} (noComma : c ≠ ',') (noQuote : c ≠ '"') {text tidied : List Char}
    (below : Tidies text tidied) : Tidies (c :: text) (c :: tidied) := by
  intro rest
  rw [List.cons_append, dropCommas, if_neg (by simp [noComma]), Place.after, if_neg noQuote, below]
  rfl

/-- Whether a text neither separates nor quotes. -/
def Unmarked (text : List Char) : Prop := ∀ c ∈ text, c ≠ ',' ∧ c ≠ '"'

instance (text : List Char) : Decidable (Unmarked text) := List.decidableBAll _ text

theorem tidies_plain {text : List Char} (plain : Unmarked text) : Tidies text text := by
  induction text with
  | nil => exact tidies_nil
  | cons c rest ih =>
    obtain ⟨⟨noComma, noQuote⟩, plain⟩ := List.forall_mem_cons.mp plain
    exact (ih plain).cons noComma noQuote

theorem tidies_blank {text : List Char} (blank : Blank text) : Tidies text text := by
  refine tidies_plain fun c member => ⟨?_, ?_⟩ <;> rintro rfl <;> cases blank _ member

/-- A string stays as it is. -/
theorem tidies_string {body : List Char} (string : Body body) :
    Tidies ('"' :: body) ('"' :: body) := by
  have inside : ∀ rest, dropCommas .inString (body ++ rest) = body ++ dropCommas .outside rest := by
    induction string with
    | close => exact fun _ => rfl
    | plain noQuote noBackslash _ ih =>
      intro rest
      show _ :: dropCommas (Place.after .inString _) _ = _
      rw [Place.after, if_neg noBackslash, if_neg noQuote]
      exact congrArg (List.cons _) (ih rest)
    | escape c _ ih => exact fun rest => congrArg (fun text => '\\' :: c :: text) (ih rest)
  intro rest
  show '"' :: dropCommas .inString (body ++ rest) = _
  rw [inside]
  rfl

theorem tidies_scalar {text : List Char} (scalar : ScalarText text) : Tidies text text := by
  cases scalar with
  | word known =>
    rcases known with rfl | rfl | rfl <;> exact tidies_plain (by decide)
  | quoted string => exact tidies_string string
  | numeric start below =>
    refine tidies_plain (List.forall_mem_cons.mpr ⟨?_, fun d member => ?_⟩)
    · rcases start with rfl | digit
      · decide
      · constructor <;> rintro rfl <;> cases digit
    · constructor <;> rintro rfl <;> cases below _ member

theorem isBlank_of_isBlank {c : Char} (blank : Json.isBlank c = true) : Text.isBlank c = true := by
  unfold Json.isBlank at blank
  simp only [Bool.or_eq_true, decide_eq_true_eq] at blank
  rcases blank with ((rfl | rfl) | rfl) | rfl <;> rfl

/-- What stands behind blanks decides whether a comma stays. -/
theorem closesNext_append {front : List Char} (blank : Blank front) {c : Char}
    (visible : Text.isBlank c = false) (rest : List Char) :
    closesNext (front ++ c :: rest) = (c == '\x7d' || c == ']') := by
  unfold closesNext
  rw [List.dropWhile_append_of_pos fun d member => isBlank_of_isBlank (blank d member),
    List.dropWhile_cons_of_neg (by simp [visible])]
  rfl

theorem visible_of_opens {c : Char} (start : opens c = true) :
    Text.isBlank c = false ∧ (c == '\x7d' || c == ']') = false := by
  rcases Json.opens_cases start with digit | rfl | rfl | rfl | rfl | rfl | rfl | rfl
  · unfold Decimal.isDigit at digit
    rw [decide_eq_true_eq] at digit
    have bounds : 48 ≤ c.toNat ∧ c.toNat ≤ 57 := digit
    refine ⟨?_, ?_⟩
    · unfold Text.isBlank
      simp only [Bool.or_eq_false_iff, decide_eq_false_iff_not, beq_eq_false_iff_ne]
      omega
    · rw [Bool.or_eq_false_iff, beq_eq_false_iff_ne, beq_eq_false_iff_ne]
      constructor <;> rintro rfl <;> revert bounds <;> decide
  all_goals decide

/-- A comma in front of something that does not close a container stays. -/
theorem Tidies.comma {text tidied : List Char} (goes : ∀ rest, closesNext (text ++ rest) = false)
    (below : Tidies text tidied) : Tidies (',' :: text) (',' :: tidied) := by
  intro rest
  rw [List.cons_append, dropCommas, goes, Bool.and_false, if_neg (by decide), Place.after,
    if_neg (by decide), below]
  rfl

/-- A comma in front of a closing bracket or brace is dropped. -/
theorem tidies_closing {comma : Bool} {tail : List Char} (blank : Blank tail) {close : Char}
    (mark : close = ']' ∨ close = '\x7d') :
    Tidies (closing comma tail ++ [close]) (tail ++ [close]) := by
  have plain : Tidies (tail ++ [close]) (tail ++ [close]) := by
    refine (tidies_blank blank).append (tidies_plain fun c member => ?_)
    rw [List.mem_singleton.mp member]
    rcases mark with rfl | rfl <;> decide
  cases comma with
  | false => exact plain
  | true =>
    intro rest
    have closes : closesNext ((tail ++ [close]) ++ rest) = true := by
      rw [List.append_assoc]
      rcases mark with rfl | rfl <;> exact closesNext_append blank (by decide) rest
    show dropCommas .outside (',' :: ((tail ++ [close]) ++ rest)) = _
    rw [dropCommas, closes, if_pos (by decide), plain]

/-- Parts with commas between them. -/
theorem tidies_following {α : Type} {parts : List α} {text tidied : α → List Char}
    (goes : ∀ part ∈ parts, ∀ rest, closesNext (text part ++ rest) = false)
    (tidies : ∀ part ∈ parts, Tidies (text part) (tidied part)) :
    Tidies (following (parts.map text)) (following (parts.map tidied)) := by
  induction parts with
  | nil => exact tidies_nil
  | cons part others ih =>
    obtain ⟨here, goes⟩ := List.forall_mem_cons.mp goes
    obtain ⟨first, tidies⟩ := List.forall_mem_cons.mp tidies
    rw [Json.following_cons, Json.following_cons]
    refine Tidies.comma (fun rest => ?_) (first.append (ih goes tidies))
    rw [List.append_assoc]
    exact here _

theorem tidies_separated {α : Type} {parts : List α} {text tidied : α → List Char}
    (goes : ∀ part ∈ parts, ∀ rest, closesNext (text part ++ rest) = false)
    (tidies : ∀ part ∈ parts, Tidies (text part) (tidied part)) :
    Tidies (commaSeparated (parts.map text)) (commaSeparated (parts.map tidied)) := by
  cases parts with
  | nil => exact tidies_nil
  | cons part others =>
    obtain ⟨_, goes⟩ := List.forall_mem_cons.mp goes
    obtain ⟨first, tidies⟩ := List.forall_mem_cons.mp tidies
    rw [List.map_cons, List.map_cons, Json.commaSeparated_cons, Json.commaSeparated_cons]
    exact first.append (tidies_following goes tidies)

/-! ### Written values -/

/-- Whether a text is read as a value wherever it stands, with no comma that is dropped and no white
space at its end. -/
structure Inlay (text : List Char) (value : Json) : Prop extends Solid text value where
  tidies : Tidies text text
  visible : ∀ c ∈ text.getLast?, Text.isBlank c = false

section

variable {gap : List Char} {value : Json}

/-- What starts a part of a container closes none. -/
theorem goes_of_opens {front text : List Char} (blank : Blank front)
    (start : ∃ c rest, text = c :: rest ∧ opens c = true) (more : List Char) :
    closesNext (front ++ (text ++ more)) = false := by
  obtain ⟨c, rest, rfl, opened⟩ := start
  obtain ⟨visible, goes⟩ := visible_of_opens opened
  rw [List.cons_append, closesNext_append blank visible, goes]

/-- A key with its colon. -/
theorem tidies_label {label : Label} (formed : label.Formed) : Tidies label.text label.text := by
  obtain ⟨front, split, body, -⟩ := Json.readText_ok formed.spelled
  rw [List.append_nil] at split
  have string : Tidies ('"' :: label.body) ('"' :: label.body) := tidies_string (split ▸ body)
  have colon : Tidies [':'] [':'] := tidies_plain (by decide)
  have whole := (tidies_blank formed.front).append
    (string.append ((tidies_blank formed.back).append colon))
  simpa only [Label.text, List.cons_append] using whole

/-- **Dropping commas tidies a written value up** and leaves what follows to be tidied alike. -/
theorem tidies_write (inlay : Inlay gap value) {written : Written} (formed : written.Formed) :
    Tidies (written.write gap) (written.tidy.write gap) := by
  induction written using Written.holds_of_written with
  | gap => exact inlay.tidies
  | scalar text found => exact tidies_scalar (Json.readValue_scalar formed.1 formed.2).1
  | array elements comma tail ih =>
    obtain ⟨formed, tailBlank, -⟩ := (Written.formed_array elements comma tail).mp formed
    rw [Written.tidy_array, Written.write_array, Written.write_array, List.map_map]
    refine Tidies.cons (by decide) (by decide) (Tidies.append (tidies_separated ?_ ?_)
      (tidies_closing tailBlank (.inl rfl)))
    · intro element member more
      obtain ⟨front, content, -⟩ := formed element member
      rw [Written.elementText, List.append_assoc, List.append_assoc]
      exact goes_of_opens front (Written.opens_write inlay.toSolid _ content) _
    · intro element member
      obtain ⟨front, content, back⟩ := formed element member
      exact (tidies_blank front).append ((ih element member content).append (tidies_blank back))
  | object fields comma tail ih =>
    obtain ⟨formed, tailBlank, -⟩ := (Written.formed_object fields comma tail).mp formed
    rw [Written.tidy_object, Written.write_object, Written.write_object, List.map_map]
    refine Tidies.cons (by decide) (by decide) (Tidies.append (tidies_separated ?_ ?_)
      (tidies_closing tailBlank (.inr rfl)))
    · intro field member more
      obtain ⟨label, -⟩ := formed field member
      rw [Written.memberText, Label.text, List.append_assoc, List.append_assoc]
      exact goes_of_opens label.front ⟨_, _, rfl, rfl⟩ _
    · intro field member
      obtain ⟨label, front, content, back⟩ := formed field member
      exact (tidies_label label).append ((tidies_blank front).append
        ((ih field member content).append (tidies_blank back)))

theorem not_isBlank_of_inNumber {c : Char} (inside : Json.inNumber c = true) :
    Text.isBlank c = false := by
  unfold Json.inNumber at inside
  simp only [Bool.or_eq_true, beq_iff_eq] at inside
  rcases inside with ((((digit | rfl) | rfl) | rfl) | rfl) | rfl
  · refine (visible_of_opens ?_).1
    simp [opens, digit]
  all_goals decide

theorem visible_of_scalar {text : List Char} (scalar : ScalarText text) :
    ∀ c ∈ text.getLast?, Text.isBlank c = false := by
  intro c member
  rcases scalar.last c member with numeric | rfl | rfl
  · exact not_isBlank_of_inNumber numeric
  · rfl
  · rfl

/-- A written value does not end with white space. -/
theorem visible_write (inlay : Inlay gap value) {written : Written} (formed : written.Formed) :
    ∀ c ∈ (written.write gap).getLast?, Text.isBlank c = false := by
  cases written with
  | gap => exact inlay.visible
  | scalar text found => exact visible_of_scalar (Json.readValue_scalar formed.1 formed.2).1
  | array elements comma tail =>
    rw [Written.write_array, ← List.append_assoc, ← List.cons_append, List.getLast?_append]
    rintro c ⟨⟩
    rfl
  | object fields comma tail =>
    rw [Written.write_object, ← List.append_assoc, ← List.cons_append, List.getLast?_append]
    rintro c ⟨⟩
    rfl

/-- What stands in the gaps of a written value that has none. -/
theorem inlay_null : Inlay ['n', 'u', 'l', 'l'] .null :=
  { Json.solid_scalar rfl rfl with
    tidies := tidies_plain (by decide)
    visible := by rintro c ⟨⟩; rfl }

/-- **Compact texts can stand in documents**, whatever their strings say. -/
theorem inlay_chars (valid : value.Valid) (kept : value.AllNumbers Json.Number.Kept) :
    Inlay value.chars value := by
  have formed := Written.formed_ofJson valid kept
  have tidies := tidies_write inlay_null formed
  have visible := visible_write inlay_null formed
  rw [Written.tidy_ofJson, Written.write_ofJson] at tidies
  rw [Written.write_ofJson] at visible
  exact { Json.solid_chars valid kept with tidies, visible }

end

/-! ### Documents -/

/-- Whether a text is white space. -/
def White (text : List Char) : Prop := ∀ c ∈ text, Text.isBlank c = true

instance (text : List Char) : Decidable (White text) := List.decidableBAll _ text

section

variable {front back gap : List Char} {value : Json} {written : Written}

/-- White space around a text that neither starts nor ends with any. -/
theorem trim_append (frontWhite : White front) (backWhite : White back) {c : Char}
    {rest : List Char} (head : Text.isBlank c = false)
    (last : ∀ d ∈ (c :: rest).getLast?, Text.isBlank d = false) :
    Text.trim (front ++ (c :: rest ++ back)) = c :: rest := by
  have start : Text.trimStart (front ++ (c :: rest ++ back)) = c :: rest ++ back := by
    rw [Text.trimStart, List.dropWhile_append_of_pos frontWhite]
    exact List.dropWhile_cons_of_neg (by simp [head])
  have behind : ∀ d ∈ back.reverse, Text.isBlank d = true :=
    fun d member => backWhite d (List.mem_reverse.mp member)
  have ends : ∀ d ∈ (c :: rest).reverse.head?, Text.isBlank d = false := by
    rwa [List.head?_reverse]
  rw [Text.trim, start, Text.trimEnd, List.reverse_append, List.dropWhile_append_of_pos behind,
    (Runs.none_of_head ends).2, List.reverse_reverse]

/-- **Where a document starts and ends.** -/
theorem trim_write (inlay : Inlay gap value) (formed : written.Formed) (frontWhite : White front)
    (backWhite : White back) :
    Text.trim (front ++ (written.write gap ++ back)) = written.write gap := by
  have last := visible_write inlay formed
  obtain ⟨c, rest, start, opened⟩ := Written.opens_write inlay.toSolid written formed
  rw [start] at last ⊢
  exact trim_append frontWhite backWhite (visible_of_opens opened).1 last

/-- A text that is read as a value wherever it stands is read as a whole. -/
theorem read_of_solid {text : List Char} (solid : Solid text value)
    (within : value.depth ≤ Json.maxNesting) : Json.read text = .ok value.merged := by
  have whole := solid.reads Json.maxNesting [] within Json.apart_nil
  rw [List.append_nil] at whole
  unfold Json.read Json.readWritten
  rw [whole]
  rfl

/-- A whole written value is tidied up. -/
theorem dropCommas_write (inlay : Inlay gap value) (formed : written.Formed) :
    dropCommas .outside (written.write gap) = written.tidy.write gap := by
  have ends := tidies_write inlay formed []
  rw [List.append_nil] at ends
  exact ends.trans (List.append_nil _)

/-- **A document is read as its value**, with what stands in its gaps in place. -/
theorem document_write (inlay : Inlay gap value) (formed : written.Formed)
    (frontWhite : White front) (backWhite : White back)
    (within : (written.fill value).depth ≤ Json.maxNesting) :
    document (front ++ (written.write gap ++ back)) = .ok (written.fill value).merged := by
  have answers := Written.answers_write inlay.toSolid formed within Json.apart_nil
  obtain ⟨c, rest, start, -⟩ := Written.opens_write inlay.toSolid written formed
  have some : (written.write gap).isEmpty = false := by rw [start]; rfl
  have tidied : Json.read (written.tidy.write gap) = .ok (written.fill value).merged := by
    have solid := Written.solid_write inlay.toSolid (Written.formed_tidy formed)
      (Written.isExact_tidy written)
    rw [Written.fill_tidy] at solid
    exact read_of_solid solid within
  unfold document
  simp only [trim_write inlay formed frontWhite backWhite, some, if_neg Bool.false_ne_true]
  cases exact : written.isExact with
  | true =>
    rw [read_of_solid (Written.solid_write inlay.toSolid formed exact) within]
  | false =>
    rw [exact, List.append_nil] at answers
    obtain ⟨error, refused⟩ := answers
    have strict : Json.read (written.write gap) = .error error := by
      unfold Json.read Json.readWritten
      rw [refused]
      rfl
    rw [strict, dropCommas_write inlay formed]
    dsimp only
    rw [tidied]

end

end FieldResolver.Template.Output
