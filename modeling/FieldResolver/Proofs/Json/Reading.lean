/-
**Reading written values.**

A written value without commas in front of closing brackets and braces is read as the value that it
writes, wherever it stands; with one of them it is refused. The containers of the value may lie
inside one another as deeply as the reader goes.

* `Answers`: what a reader makes of a text that it takes or refuses;
* `answers_element` and `answers_items`, `answers_member` and `answers_fields`: one part of an array
  or an object, and all of them by induction;
* `Solid`: whether a text is read as a value wherever it stands;
* `Written.answers_write`: how a written value is read when a solid text stands in its gaps, and
  `Written.solid_write`: an exact one is solid itself.
-/

import FieldResolver.Proofs.Json.Written

namespace FieldResolver.Json

section

variable {α β : Type}

/-- What a reader makes of a text that it takes as a value, or refuses. -/
def Answers (taken : Bool) (value : α) (rest : List Char)
    (answer : Except ReadError (α × List Char)) : Prop :=
  match taken with
  | true => answer = .ok (value, rest)
  | false => ∃ error, answer = .error error

/-- A text that is taken if its first part and what follows are. -/
theorem Answers.bind {taken taken' : Bool} {value : α} {value' : β} {rest rest' : List Char}
    {first : Except ReadError (α × List Char)}
    {next : α × List Char → Except ReadError (β × List Char)}
    (here : Answers taken value rest first)
    (below : Answers taken' value' rest' (next (value, rest))) :
    Answers (taken && taken') value' rest' (first >>= next) := by
  cases taken with
  | false =>
    obtain ⟨error, refused⟩ := here
    exact ⟨error, by rw [refused]; rfl⟩
  | true =>
    rw [show first = .ok (value, rest) from here]
    exact below

/-- Changing what was read. -/
theorem Answers.map {taken : Bool} {value : α} {rest : List Char} (change : α → β)
    {first : Except ReadError (α × List Char)} (here : Answers taken value rest first) :
    Answers taken (change value) rest
      (first >>= fun found => .ok (change found.1, found.2)) := by
  cases taken with
  | false =>
    obtain ⟨error, refused⟩ := here
    exact ⟨error, by rw [refused]; rfl⟩
  | true =>
    rw [show first = .ok (value, rest) from here]
    rfl

end

/-! ### Blanks -/

theorem skipBlanks_append {front : List Char} (blank : Blank front) (text : List Char) :
    skipBlanks (front ++ text) = skipBlanks text :=
  List.dropWhile_append_of_pos blank

theorem skipBlanks_of_head {c : Char} (visible : isBlank c = false) (rest : List Char) :
    skipBlanks (c :: rest) = c :: rest :=
  List.dropWhile_cons_of_neg (by simp [visible])

theorem readValue_blanks {front : List Char} (blank : Blank front) (nesting : Nat)
    (text : List Char) : readValue nesting (front ++ text) = readValue nesting text := by
  unfold readValue
  rw [skipBlanks_append blank]

theorem not_inNumber_of_isBlank {c : Char} (blank : isBlank c = true) : inNumber c = false := by
  unfold isBlank at blank
  simp only [Bool.or_eq_true, decide_eq_true_eq] at blank
  rcases blank with ((rfl | rfl) | rfl) | rfl <;> rfl

theorem apart_append {back text : List Char} (blank : Blank back) (apart : Apart text) :
    Apart (back ++ text) := by
  cases back with
  | nil => exact apart
  | cons c rest => exact apart_cons (not_inNumber_of_isBlank (blank c List.mem_cons_self)) _

theorem apart_closing {comma : Bool} {tail : List Char} (blank : Blank tail) {close : Char}
    (mark : inNumber close = false) (rest : List Char) :
    Apart (closing comma tail ++ close :: rest) := by
  cases comma with
  | true => exact apart_cons rfl _
  | false => exact apart_append blank (apart_cons mark rest)

theorem apart_following {texts : List (List Char)} {text : List Char} (apart : Apart text) :
    Apart (following texts ++ text) := by
  cases texts with
  | nil => exact apart
  | cons first others => exact apart_cons rfl _

theorem length_le_following (texts : List (List Char)) :
    texts.length ≤ (following texts).length := by
  induction texts with
  | nil => exact Nat.le_refl 0
  | cons text rest ih =>
    show rest.length + 1 ≤ (commaSeparated (text :: rest)).length + 1
    rw [commaSeparated_cons, List.length_append]
    omega

/-! ### Values that stand somewhere -/

/-- Whether a character starts a value. -/
def opens (c : Char) : Bool :=
  Decimal.isDigit c || c == '-' || c == '"' || c == '[' || c == '\x7b' || c == 'n' || c == 't' ||
    c == 'f'

theorem opens_cases {c : Char} (start : opens c = true) :
    Decimal.isDigit c = true ∨ c = '-' ∨ c = '"' ∨ c = '[' ∨ c = '\x7b' ∨ c = 'n' ∨ c = 't' ∨
      c = 'f' := by
  unfold opens at start
  simpa [or_assoc] using start

theorem visible_of_opens {c : Char} (start : opens c = true) : isBlank c = false := by
  by_contra blank
  rw [Bool.not_eq_false] at blank
  unfold isBlank at blank
  simp only [Bool.or_eq_true, decide_eq_true_eq] at blank
  rcases blank with ((rfl | rfl) | rfl) | rfl <;> cases start

theorem ne_close_of_opens {c : Char} (start : opens c = true) : c ≠ ']' := by
  rintro rfl
  cases start

/-- Whether a text that starts a value is taken as a value or refused, wherever it stands. -/
structure Part (item : Reader Json) (taken : Bool) (text : List Char) (value : Json) : Prop where
  start : ∃ c rest, text = c :: rest ∧ opens c = true
  reads : ∀ front more, Blank front → Apart more →
    Answers taken value more (item (front ++ (text ++ more)))

/-! ### Arrays -/

section

variable {item : Reader Json} {budget : Nat} {read : List Json} {text rest more : List Char}

theorem readItems_close (shut : skipBlanks text = ']' :: more) :
    readItems item (budget + 1) read text = .ok (read.reverse, more) := by
  simp only [readItems, shut]

theorem readItems_comma (comma : skipBlanks text = ',' :: rest)
    (shut : skipBlanks rest = ']' :: more) :
    readItems item (budget + 1) read text = failBefore .trailingComma more := by
  simp only [readItems, comma, shut]

theorem readItems_next {c : Char} (comma : skipBlanks text = ',' :: rest)
    (next : skipBlanks rest = c :: more) (goes : c ≠ ']') :
    readItems item (budget + 1) read text =
      item (c :: more) >>= fun found => readItems item budget (found.1 :: read) found.2 := by
  rw [readItems, comma]
  simp only [next]
  split
  · rename_i same
    cases same
  · rename_i same
    exact absurd (List.cons.inj same).1 goes
  · rfl

theorem readArray_close (shut : skipBlanks text = ']' :: more) :
    readArray item text = .ok (.array [], more) := by
  simp only [readArray, shut]

theorem readArray_next {c : Char} (next : skipBlanks text = c :: more) (goes : c ≠ ']') :
    readArray item text = item (c :: more) >>= fun found =>
      readItems item (found.2.length + 1) [found.1] found.2 >>= fun all =>
        .ok (.array all.1, all.2) := by
  unfold readArray
  rw [next]
  split
  · rename_i same
    cases same
  · rename_i same
    exact absurd (List.cons.inj same).1 goes
  · rfl

end

section

variable {item : Reader Json} {taken taken' : Bool} {text front back behind more : List Char}
  {value value' : Json} {values : List Json}

/-- Behind an element, another one and then what is read behind that. -/
theorem answers_element {budget : Nat} {read : List Json} (blank : Blank back)
    (frontBlank : Blank front) (part : Part item taken text value) (apart : Apart behind)
    (below : Answers taken' values more (readItems item budget (value :: read) behind)) :
    Answers (taken && taken') values more
      (readItems item (budget + 1) read (back ++ ',' :: (front ++ (text ++ behind)))) := by
  obtain ⟨c, rest, rfl, opened⟩ := part.start
  have here := part.reads [] behind (fun _ member => nomatch member) apart
  have comma : skipBlanks (back ++ ',' :: (front ++ (c :: rest ++ behind))) =
      ',' :: (front ++ (c :: rest ++ behind)) := by
    rw [skipBlanks_append blank, skipBlanks_of_head rfl]
  have next : skipBlanks (front ++ (c :: rest ++ behind)) = c :: (rest ++ behind) := by
    rw [skipBlanks_append frontBlank, List.cons_append,
      skipBlanks_of_head (visible_of_opens opened)]
  rw [readItems_next comma next (ne_close_of_opens opened)]
  exact here.bind below

/-- The first element, and then what is read behind it. -/
theorem answers_array (frontBlank : Blank front) (part : Part item taken text value)
    (apart : Apart behind)
    (below : Answers taken' values more (readItems item (behind.length + 1) [value] behind)) :
    Answers (taken && taken') (.array values) more
      (readArray item (front ++ (text ++ behind))) := by
  obtain ⟨c, rest, rfl, opened⟩ := part.start
  have here := part.reads [] behind (fun _ member => nomatch member) apart
  have next : skipBlanks (front ++ (c :: rest ++ behind)) = c :: (rest ++ behind) := by
    rw [skipBlanks_append frontBlank, List.cons_append,
      skipBlanks_of_head (visible_of_opens opened)]
  rw [readArray_next next (ne_close_of_opens opened)]
  exact here.bind (below.map Json.array)

end

section

variable {item : Reader Json} {gap tail more : List Char} {value : Json} {comma : Bool}
  {elements : List (Padded Written)}

/-- What stands behind a part: its blanks and the rest of the container. -/
theorem apart_behind {back : List Char} {close : Char} (blank : Blank back) (tailBlank : Blank tail)
    (mark : inNumber close = false) (texts : List (List Char)) :
    Apart (back ++ (following texts ++ (closing comma tail ++ close :: more))) :=
  apart_append blank (apart_following (apart_closing tailBlank mark more))

/-- The elements behind one of them, up to the closing bracket. -/
theorem answers_items
    (blanks : ∀ element ∈ elements, Blank element.front ∧ Blank element.back)
    (parts : ∀ element ∈ elements, Part item element.content.isExact (element.content.write gap)
      (element.content.fill value))
    (tailBlank : Blank tail) {budget : Nat} (room : elements.length < budget) (read : List Json)
    {back : List Char} (blank : Blank back) :
    Answers ((elements.all fun element => element.content.isExact) && !comma)
      (read.reverse ++ elements.map fun element => element.content.fill value) more
      (readItems item budget read (back ++ (following (elements.map (Written.elementText gap)) ++
        (closing comma tail ++ ']' :: more)))) := by
  induction elements generalizing budget read back with
  | nil =>
    obtain ⟨budget, rfl⟩ := Nat.exists_eq_succ_of_ne_zero (Nat.ne_of_gt room)
    rw [List.map_nil, List.map_nil, List.append_nil]
    cases comma with
    | false =>
      refine readItems_close ?_
      show skipBlanks (back ++ (tail ++ ']' :: more)) = _
      rw [skipBlanks_append blank, skipBlanks_append tailBlank, skipBlanks_of_head rfl]
    | true =>
      have behind : skipBlanks (back ++ ',' :: (tail ++ ']' :: more)) =
          ',' :: (tail ++ ']' :: more) := by
        rw [skipBlanks_append blank, skipBlanks_of_head rfl]
      have shut : skipBlanks (tail ++ ']' :: more) = ']' :: more := by
        rw [skipBlanks_append tailBlank, skipBlanks_of_head rfl]
      exact ⟨_, readItems_comma behind shut⟩
  | cons element others ih =>
    obtain ⟨budget, rfl⟩ := Nat.exists_eq_succ_of_ne_zero (Nat.ne_of_gt (Nat.zero_lt_of_lt room))
    obtain ⟨⟨front, behind⟩, blanks⟩ := List.forall_mem_cons.mp blanks
    obtain ⟨part, parts⟩ := List.forall_mem_cons.mp parts
    have below := ih blanks parts (Nat.lt_of_succ_lt_succ room)
      (element.content.fill value :: read) behind
    rw [List.reverse_cons, List.append_assoc] at below
    rw [following_cons, List.all_cons, List.map_cons, Bool.and_assoc, Written.elementText]
    simp only [List.append_assoc, List.cons_append]
    exact answers_element blank front part (apart_behind behind tailBlank rfl _) below

/-- An array behind its opening bracket. -/
theorem answers_readArray
    (blanks : ∀ element ∈ elements, Blank element.front ∧ Blank element.back)
    (parts : ∀ element ∈ elements, Part item element.content.isExact (element.content.write gap)
      (element.content.fill value))
    (tailBlank : Blank tail) (some : comma = true → elements ≠ []) :
    Answers ((elements.all fun element => element.content.isExact) && !comma)
      (.array (elements.map fun element => element.content.fill value)) more
      (readArray item (commaSeparated (elements.map (Written.elementText gap)) ++
        (closing comma tail ++ ']' :: more))) := by
  cases elements with
  | nil =>
    obtain rfl : comma = false := Bool.eq_false_iff.mpr fun behind => some behind rfl
    refine readArray_close ?_
    show skipBlanks (tail ++ ']' :: more) = _
    rw [skipBlanks_append tailBlank, skipBlanks_of_head rfl]
  | cons element others =>
    obtain ⟨⟨front, behind⟩, blanks⟩ := List.forall_mem_cons.mp blanks
    obtain ⟨part, parts⟩ := List.forall_mem_cons.mp parts
    rw [List.all_cons, List.map_cons, List.map_cons, Bool.and_assoc, commaSeparated_cons,
      Written.elementText]
    simp only [List.append_assoc]
    refine answers_array front part (apart_behind behind tailBlank rfl _) ?_
    refine answers_items blanks parts tailBlank ?_ [element.content.fill value] behind
    have texts := length_le_following (others.map (Written.elementText gap))
    simp only [List.length_map, List.length_append] at texts ⊢
    omega

end

/-! ### Objects -/

section

variable {item : Reader Json} {budget : Nat} {read : List (String × Json)}
  {text rest more : List Char}

theorem readFields_close (shut : skipBlanks text = '\x7d' :: more) :
    readFields item (budget + 1) read text = .ok (read.reverse, more) := by
  simp only [readFields, shut]

theorem readFields_comma (comma : skipBlanks text = ',' :: rest)
    (shut : skipBlanks rest = '\x7d' :: more) :
    readFields item (budget + 1) read text = failBefore .trailingComma more := by
  simp only [readFields, comma, shut]

theorem readFields_next (comma : skipBlanks text = ',' :: rest)
    (next : skipBlanks rest = '"' :: more) :
    readFields item (budget + 1) read text =
      readField item more >>= fun found => readFields item budget (found.1 :: read) found.2 := by
  simp only [readFields, comma, next]

theorem readObject_close (shut : skipBlanks text = '\x7d' :: more) :
    readObject item text = .ok (.object [], more) := by
  simp only [readObject, shut]

theorem readObject_next (next : skipBlanks text = '"' :: more) :
    readObject item text = readField item more >>= fun found =>
      readFields item (found.2.length + 1) [found.1] found.2 >>= fun all =>
        .ok (.object all.1, all.2) := by
  simp only [readObject, next]

/-- A key starts with a quote. -/
theorem Label.Formed.skipBlanks_text {label : Label} (formed : label.Formed) (more : List Char) :
    skipBlanks (label.text ++ more) = '"' :: (label.body ++ (label.back ++ ':' :: more)) := by
  rw [Label.text, List.append_assoc, skipBlanks_append formed.front, List.cons_append,
    skipBlanks_of_head rfl]
  simp only [List.append_assoc, List.cons_append, List.nil_append]

theorem Label.Formed.reads {label : Label} (formed : label.Formed) (more : List Char) :
    readText (label.body ++ more) = .ok (label.key, more) := by
  obtain ⟨front, split, -, again⟩ := readText_ok formed.spelled
  rw [List.append_nil] at split
  rw [split]
  exact again more

end

section

variable {item : Reader Json} {taken taken' : Bool} {label : Label}
  {text front back behind more : List Char} {value : Json} {values : List (String × Json)}

/-- A field behind the opening quote of its key. -/
theorem answers_field (formed : label.Formed) (frontBlank : Blank front)
    (part : Part item taken text value) (apart : Apart behind) :
    Answers taken (label.key, value) behind
      (readField item (label.body ++ (label.back ++ ':' :: (front ++ (text ++ behind))))) := by
  have whole : readField item (label.body ++ (label.back ++ ':' :: (front ++ (text ++ behind)))) =
      item (front ++ (text ++ behind)) >>= fun found =>
        .ok ((label.key, found.1), found.2) := by
    have colon : skipBlanks (label.back ++ ':' :: (front ++ (text ++ behind))) =
        ':' :: (front ++ (text ++ behind)) := by
      rw [skipBlanks_append formed.back, skipBlanks_of_head rfl]
    unfold readField
    rw [formed.reads]
    dsimp only [Bind.bind, Except.bind]
    rw [colon]
    rfl
  rw [whole]
  exact (part.reads front behind frontBlank apart).map fun read => (label.key, read)

/-- Behind a field, another one and then what is read behind that. -/
theorem answers_member {budget : Nat} {read : List (String × Json)} (blank : Blank back)
    (formed : label.Formed) (frontBlank : Blank front) (part : Part item taken text value)
    (apart : Apart behind)
    (below : Answers taken' values more
      (readFields item budget ((label.key, value) :: read) behind)) :
    Answers (taken && taken') values more
      (readFields item (budget + 1) read
        (back ++ ',' :: (label.text ++ (front ++ (text ++ behind))))) := by
  have comma : skipBlanks (back ++ ',' :: (label.text ++ (front ++ (text ++ behind)))) =
      ',' :: (label.text ++ (front ++ (text ++ behind))) := by
    rw [skipBlanks_append blank, skipBlanks_of_head rfl]
  rw [readFields_next comma (formed.skipBlanks_text _)]
  exact (answers_field formed frontBlank part apart).bind below

/-- The first field, and then what is read behind it. -/
theorem answers_object (formed : label.Formed) (frontBlank : Blank front)
    (part : Part item taken text value) (apart : Apart behind)
    (below : Answers taken' values more
      (readFields item (behind.length + 1) [(label.key, value)] behind)) :
    Answers (taken && taken') (.object values) more
      (readObject item (label.text ++ (front ++ (text ++ behind)))) := by
  rw [readObject_next (formed.skipBlanks_text _)]
  exact (answers_field formed frontBlank part apart).bind (below.map Json.object)

end

section

variable {item : Reader Json} {gap tail more : List Char} {value : Json} {comma : Bool}
  {fields : List (Label × Padded Written)}

/-- The fields behind one of them, up to the closing brace. -/
theorem answers_fields
    (blanks : ∀ field ∈ fields, field.1.Formed ∧ Blank field.2.front ∧ Blank field.2.back)
    (parts : ∀ field ∈ fields, Part item field.2.content.isExact (field.2.content.write gap)
      (field.2.content.fill value))
    (tailBlank : Blank tail) {budget : Nat} (room : fields.length < budget)
    (read : List (String × Json)) {back : List Char} (blank : Blank back) :
    Answers ((fields.all fun field => field.2.content.isExact) && !comma)
      (read.reverse ++ fields.map fun field => (field.1.key, field.2.content.fill value)) more
      (readFields item budget read (back ++ (following (fields.map (Written.memberText gap)) ++
        (closing comma tail ++ '\x7d' :: more)))) := by
  induction fields generalizing budget read back with
  | nil =>
    obtain ⟨budget, rfl⟩ := Nat.exists_eq_succ_of_ne_zero (Nat.ne_of_gt room)
    rw [List.map_nil, List.map_nil, List.append_nil]
    cases comma with
    | false =>
      refine readFields_close ?_
      show skipBlanks (back ++ (tail ++ '\x7d' :: more)) = _
      rw [skipBlanks_append blank, skipBlanks_append tailBlank, skipBlanks_of_head rfl]
    | true =>
      have behind : skipBlanks (back ++ ',' :: (tail ++ '\x7d' :: more)) =
          ',' :: (tail ++ '\x7d' :: more) := by
        rw [skipBlanks_append blank, skipBlanks_of_head rfl]
      have shut : skipBlanks (tail ++ '\x7d' :: more) = '\x7d' :: more := by
        rw [skipBlanks_append tailBlank, skipBlanks_of_head rfl]
      exact ⟨_, readFields_comma behind shut⟩
  | cons field others ih =>
    obtain ⟨budget, rfl⟩ := Nat.exists_eq_succ_of_ne_zero (Nat.ne_of_gt (Nat.zero_lt_of_lt room))
    obtain ⟨⟨formed, front, behind⟩, blanks⟩ := List.forall_mem_cons.mp blanks
    obtain ⟨part, parts⟩ := List.forall_mem_cons.mp parts
    have below := ih blanks parts (Nat.lt_of_succ_lt_succ room)
      ((field.1.key, field.2.content.fill value) :: read) behind
    rw [List.reverse_cons, List.append_assoc] at below
    rw [following_cons, List.all_cons, List.map_cons, Bool.and_assoc, Written.memberText,
      Written.elementText]
    simp only [List.append_assoc, List.cons_append]
    exact answers_member blank formed front part (apart_behind behind tailBlank rfl _) below

/-- An object behind its opening brace. -/
theorem answers_readObject
    (blanks : ∀ field ∈ fields, field.1.Formed ∧ Blank field.2.front ∧ Blank field.2.back)
    (parts : ∀ field ∈ fields, Part item field.2.content.isExact (field.2.content.write gap)
      (field.2.content.fill value))
    (tailBlank : Blank tail) (some : comma = true → fields ≠ []) :
    Answers ((fields.all fun field => field.2.content.isExact) && !comma)
      (.object (fields.map fun field => (field.1.key, field.2.content.fill value))) more
      (readObject item (commaSeparated (fields.map (Written.memberText gap)) ++
        (closing comma tail ++ '\x7d' :: more))) := by
  cases fields with
  | nil =>
    obtain rfl : comma = false := Bool.eq_false_iff.mpr fun behind => some behind rfl
    refine readObject_close ?_
    show skipBlanks (tail ++ '\x7d' :: more) = _
    rw [skipBlanks_append tailBlank, skipBlanks_of_head rfl]
  | cons field others =>
    obtain ⟨⟨formed, front, behind⟩, blanks⟩ := List.forall_mem_cons.mp blanks
    obtain ⟨part, parts⟩ := List.forall_mem_cons.mp parts
    rw [List.all_cons, List.map_cons, List.map_cons, Bool.and_assoc, commaSeparated_cons,
      Written.memberText, Written.elementText]
    simp only [List.append_assoc]
    refine answers_object formed front part (apart_behind behind tailBlank rfl _) ?_
    refine answers_fields blanks parts tailBlank ?_
      [(field.1.key, field.2.content.fill value)] behind
    have texts := length_le_following (others.map (Written.memberText gap))
    simp only [List.length_map, List.length_append] at texts ⊢
    omega

end

/-! ### Depth -/

section

variable {nesting : Nat}

theorem itemsDepth_le {items : List Json} (each : ∀ item ∈ items, item.depth ≤ nesting) :
    itemsDepth items ≤ nesting := by
  induction items with
  | nil => exact Nat.zero_le nesting
  | cons item rest ih =>
    obtain ⟨here, others⟩ := List.forall_mem_cons.mp each
    exact Nat.max_le.mpr ⟨here, ih others⟩

theorem fieldsDepth_le {fields : List (String × Json)}
    (each : ∀ field ∈ fields, field.2.depth ≤ nesting) : fieldsDepth fields ≤ nesting := by
  induction fields with
  | nil => exact Nat.zero_le nesting
  | cons field rest ih =>
    obtain ⟨here, others⟩ := List.forall_mem_cons.mp each
    exact Nat.max_le.mpr ⟨here, ih others⟩

theorem depth_le_of_itemsDepth {items : List Json} (within : itemsDepth items ≤ nesting) :
    ∀ item ∈ items, item.depth ≤ nesting := by
  induction items with
  | nil => exact fun _ member => nomatch member
  | cons item rest ih =>
    rw [itemsDepth] at within
    exact List.forall_mem_cons.mpr
      ⟨(Nat.le_max_left _ _).trans within, ih ((Nat.le_max_right _ _).trans within)⟩

theorem depth_le_of_fieldsDepth {fields : List (String × Json)}
    (within : fieldsDepth fields ≤ nesting) : ∀ field ∈ fields, field.2.depth ≤ nesting := by
  induction fields with
  | nil => exact fun _ member => nomatch member
  | cons field rest ih =>
    rw [fieldsDepth] at within
    exact List.forall_mem_cons.mpr
      ⟨(Nat.le_max_left _ _).trans within, ih ((Nat.le_max_right _ _).trans within)⟩

end

/-! ### Values -/

/-- Whether a text is read as a value wherever it stands. -/
structure Solid (text : List Char) (value : Json) : Prop where
  start : ∃ c rest, text = c :: rest ∧ opens c = true
  reads : ∀ nesting more, value.depth ≤ nesting → Apart more →
    readValue nesting (text ++ more) = .ok (value, more)

theorem ScalarText.opens {text : List Char} (scalar : ScalarText text) :
    ∃ c rest, text = c :: rest ∧ Json.opens c = true := by
  cases scalar with
  | word known =>
    rcases known with rfl | rfl | rfl
    · exact ⟨_, _, rfl, rfl⟩
    · exact ⟨_, _, rfl, rfl⟩
    · exact ⟨_, _, rfl, rfl⟩
  | quoted string => exact ⟨_, _, rfl, rfl⟩
  | numeric start below =>
    refine ⟨_, _, rfl, ?_⟩
    rcases start with rfl | digit
    · rfl
    · simp [Json.opens, digit]

/-- A scalar is read wherever it stands. -/
theorem solid_scalar {text : List Char} {value : Json} (visible : skipBlanks text = text)
    (read : readValue 0 text = .ok (value, [])) : Solid text value := by
  obtain ⟨scalar, reads⟩ := readValue_scalar visible read
  exact ⟨scalar.opens, fun nesting more _ apart => reads nesting more apart⟩

theorem readValue_array (inner : Nat) (text : List Char) :
    readValue (inner + 1) ('[' :: text) = readArray (readValue inner) text := by
  rfl

theorem readValue_object (inner : Nat) (text : List Char) :
    readValue (inner + 1) ('\x7b' :: text) = readObject (readValue inner) text := by
  rfl

namespace Written

variable {gap : List Char} {value : Json}

/-- What starts a written value. -/
theorem opens_write (solid : Solid gap value) (written : Written) :
    written.Formed → ∃ c rest, written.write gap = c :: rest ∧ opens c = true := by
  cases written with
  | gap => exact fun _ => solid.start
  | scalar text found => exact fun formed => (solid_scalar formed.1 formed.2).start
  | array elements comma tail => exact fun _ => ⟨_, _, rfl, rfl⟩
  | object fields comma tail => exact fun _ => ⟨_, _, rfl, rfl⟩

/-- **A written value is taken if it is exact, and refused otherwise**, wherever it stands. -/
theorem answers_write (solid : Solid gap value) {written : Written} (formed : written.Formed)
    {nesting : Nat} {more : List Char} (within : (written.fill value).depth ≤ nesting)
    (apart : Apart more) :
    Answers written.isExact (written.fill value) more
      (readValue nesting (written.write gap ++ more)) := by
  induction written using holds_of_written generalizing nesting more with
  | gap => exact solid.reads nesting more within apart
  | scalar text found => exact (solid_scalar formed.1 formed.2).reads nesting more within apart
  | array elements comma tail ih =>
    obtain ⟨formed, tailBlank, some⟩ := (formed_array elements comma tail).mp formed
    rw [fill_array, depth] at within
    obtain ⟨inner, rfl⟩ := Nat.exists_eq_add_of_le' (Nat.le_of_add_left_le within)
    have depths := depth_le_of_itemsDepth (Nat.le_of_add_le_add_right within)
    rw [fill_array, isExact_array, write_array, List.cons_append, readValue_array]
    simp only [List.append_assoc]
    refine answers_readArray (fun element member => ⟨(formed element member).1,
      (formed element member).2.2⟩) (fun element member => ⟨opens_write solid _
        (formed element member).2.1, fun front more blank apart => ?_⟩) tailBlank some
    rw [readValue_blanks blank]
    exact ih element member (formed element member).2.1
      (depths _ (List.mem_map_of_mem member)) apart
  | object fields comma tail ih =>
    obtain ⟨formed, tailBlank, some⟩ := (formed_object fields comma tail).mp formed
    rw [fill_object, depth] at within
    obtain ⟨inner, rfl⟩ := Nat.exists_eq_add_of_le' (Nat.le_of_add_left_le within)
    have depths := depth_le_of_fieldsDepth (Nat.le_of_add_le_add_right within)
    rw [fill_object, isExact_object, write_object, List.cons_append, readValue_object]
    simp only [List.append_assoc]
    refine answers_readObject (fun field member => ⟨(formed field member).1,
      (formed field member).2.1, (formed field member).2.2.2⟩) (fun field member => ⟨opens_write
        solid _ (formed field member).2.2.1, fun front more blank apart => ?_⟩) tailBlank some
    rw [readValue_blanks blank]
    exact ih field member (formed field member).2.2.1
      (depths _ (List.mem_map_of_mem member)) apart

/-- **An exact written value is read wherever it stands.** -/
theorem solid_write (solid : Solid gap value) {written : Written} (formed : written.Formed)
    (noCommas : written.isExact = true) : Solid (written.write gap) (written.fill value) := by
  refine ⟨opens_write solid written formed, fun nesting more within apart => ?_⟩
  have answers := answers_write solid formed within apart
  rw [noCommas] at answers
  exact answers

end Written

end FieldResolver.Json
