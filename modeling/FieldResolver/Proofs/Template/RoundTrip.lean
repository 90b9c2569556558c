/-
**Arguments in documents.**

A template that writes a JSON document with the arguments in places of values comes to the document
with these values in it. The arguments go from the context to the heap, from there to text, through
the parser of templates and the reader of JSON text. Whatever their strings and keys say, none of
it is taken for a part of the template or of the document.

* `IsLiteral`, `passes_write`: whether the scalars and keys of a document pass through a template
  untouched, and that the document then does;
* `parse_document`, `evaluateNodes_composes`, `ofText_document`: what a template of such a document
  comes to;
* `Evaluator.arguments_kept`: documents with the arguments in them, and `#return` of the arguments.
-/

import FieldResolver.Proofs.Template.Arguments
import FieldResolver.Proofs.Template.Documents
import FieldResolver.Proofs.Template.Reuse

namespace FieldResolver.Template

open Json (Blank Label Padded Written closing commaSeparated following)
open Output (White)

/-! ### Documents as templates -/

/-- Whether the scalars and keys of a document are literal text of a template. -/
def IsLiteral : Written → Prop :=
  Written.fold True (fun text _ => LiteralText text)
    (fun elements _ _ => ∀ element ∈ elements, element.content)
    (fun fields _ _ => ∀ field ∈ fields, LiteralText field.1.body ∧ field.2.content)

theorem isLiteral_array (elements : List (Padded Written)) (comma : Bool) (tail : List Char) :
    IsLiteral (.array elements comma tail) ↔ ∀ element ∈ elements, IsLiteral element.content := by
  rw [IsLiteral, Written.fold, Written.foldElements_eq_map, List.forall_mem_map]

theorem isLiteral_object (fields : List (Label × Padded Written)) (comma : Bool)
    (tail : List Char) :
    IsLiteral (.object fields comma tail) ↔
      ∀ field ∈ fields, LiteralText field.1.body ∧ IsLiteral field.2.content := by
  rw [IsLiteral, Written.fold, Written.foldFields_eq_map, List.forall_mem_map]

/-- White space is literal, no backslash, and no start of a segment. -/
theorem literal_of_isBlank {c : Char} (blank : Text.isBlank c = true) :
    Literal c ∧ c ≠ '\\' ∧ c ≠ '.' ∧ c ≠ '[' := by
  refine ⟨⟨?_, ?_⟩, ?_, ?_, ?_⟩ <;> rintro rfl <;> cases blank

section

variable {call gap source text : List Char}

theorem Passes.white (below : Passes call gap source text) {front : List Char}
    (white : White front) : Passes call gap (front ++ source) (front ++ text) :=
  below.append (fun c member => (literal_of_isBlank (white c member)).1) fun c member =>
    (literal_of_isBlank (white c (List.mem_of_mem_getLast? member))).2.1

theorem white_of_blank {front : List Char} (blank : Blank front) : White front :=
  fun c member => Output.isBlank_of_isBlank (blank c member)

theorem Stops.white (stops : Stops source) {front : List Char} (white : White front) :
    Stops (front ++ source) := by
  cases front with
  | nil => exact stops
  | cons c rest =>
    rintro d ⟨⟩
    exact (literal_of_isBlank (white c List.mem_cons_self)).2.2

theorem stops_cons {c : Char} (mark : c ≠ '.' ∧ c ≠ '[') (rest : List Char) :
    Stops (c :: rest) := by
  rintro d ⟨⟩
  exact mark

theorem stops_following (stops : Stops source) (texts : List (List Char)) :
    Stops (following texts ++ source) := by
  cases texts with
  | nil => exact stops
  | cons first rest => exact stops_cons (by decide) _

theorem stops_closing {comma : Bool} {tail : List Char} (blank : Blank tail) {close : Char}
    (mark : close ≠ '.' ∧ close ≠ '[') : Stops (closing comma tail ++ close :: source) := by
  cases comma with
  | true => exact stops_cons (by decide) _
  | false => exact (stops_cons mark _).white (white_of_blank blank)

theorem Passes.closing (below : Passes call gap source text) {comma : Bool} {tail : List Char}
    (blank : Blank tail) {close : Char} (mark : close = ']' ∨ close = '\x7d') :
    Passes call gap (closing comma tail ++ close :: source)
      (closing comma tail ++ close :: text) := by
  have shut : Passes call gap (tail ++ close :: source) (tail ++ close :: text) := by
    refine Passes.white (.char ?_ ?_ below) (white_of_blank blank)
    · rcases mark with rfl | rfl <;> decide
    · rcases mark with rfl | rfl <;> exact fun same => nomatch same
  cases comma with
  | false => exact shut
  | true => exact .char (by decide) (absurd · (by decide)) shut

section

variable {α : Type} {parts : List α} {calls gaps : α → List Char}
  (passes : ∀ part ∈ parts, ∀ source text, Stops source → Passes call gap source text →
    Passes call gap (calls part ++ source) (gaps part ++ text))
  (stops : Stops source) (below : Passes call gap source text)

include passes stops below

/-- Parts with commas in front of them. -/
theorem passes_following :
    Passes call gap (following (parts.map calls) ++ source)
      (following (parts.map gaps) ++ text) := by
  induction parts with
  | nil => exact below
  | cons part others ih =>
    obtain ⟨first, passes⟩ := List.forall_mem_cons.mp passes
    rw [Json.following_cons, Json.following_cons, List.cons_append, List.cons_append,
      List.append_assoc, List.append_assoc]
    exact .char (by decide) (absurd · (by decide))
      (first _ _ (stops_following stops _) (ih passes))

/-- Parts with commas between them. -/
theorem passes_separated :
    Passes call gap (commaSeparated (parts.map calls) ++ source)
      (commaSeparated (parts.map gaps) ++ text) := by
  cases parts with
  | nil => exact below
  | cons part others =>
    obtain ⟨first, passes⟩ := List.forall_mem_cons.mp passes
    rw [List.map_cons, List.map_cons, Json.commaSeparated_cons, Json.commaSeparated_cons,
      List.append_assoc, List.append_assoc]
    exact first _ _ (stops_following stops _) (passes_following passes stops below)

end

/-- A key with its colon. -/
theorem Passes.label (below : Passes call gap source text) {label : Label} (formed : label.Formed)
    (literal : LiteralText label.body) :
    Passes call gap (label.text ++ source) (label.text ++ text) := by
  refine below.append (fun c member => ?_) fun c member => ?_
  · rw [Label.text, List.mem_append, List.mem_cons, List.mem_append, List.mem_append,
      List.mem_singleton] at member
    rcases member with front | rfl | body | back | rfl
    · exact (literal_of_isBlank (white_of_blank formed.front c front)).1
    · decide
    · exact literal c body
    · exact (literal_of_isBlank (white_of_blank formed.back c back)).1
    · decide
  · have last : label.text.getLast? = some ':' := by simp [Label.text, List.getLast?_append,
      List.getLast?_cons]
    rw [last] at member
    cases member
    decide

end

/-- **A literal document passes through a template**, with the reference in its gaps. -/
theorem passes_write {call gap source text : List Char} {written : Written}
    (formed : written.Formed) (literal : IsLiteral written) (stops : Stops source)
    (below : Passes call gap source text) :
    Passes call gap (written.write call ++ source) (written.write gap ++ text) := by
  induction written using Written.holds_of_written generalizing source text with
  | gap => exact .call stops below
  | scalar content value =>
    refine below.append literal fun c member => ?_
    rcases (Json.readValue_scalar formed.1 formed.2).1.last c member with numeric | rfl | rfl
    · rintro rfl
      cases numeric
    · decide
    · decide
  | array elements comma tail ih =>
    obtain ⟨formed, tailBlank, -⟩ := (Written.formed_array elements comma tail).mp formed
    rw [isLiteral_array] at literal
    rw [Written.write_array, Written.write_array]
    simp only [List.cons_append, List.append_assoc, List.nil_append]
    refine .char (by decide) (absurd · (by decide))
      (passes_separated (fun element member source text stops below => ?_)
        (stops_closing tailBlank (by decide)) (below.closing tailBlank (.inl rfl)))
    obtain ⟨front, content, back⟩ := formed element member
    rw [Written.elementText, Written.elementText]
    simp only [List.append_assoc]
    exact (ih element member content (literal element member)
      (stops.white (white_of_blank back)) (below.white (white_of_blank back))).white
        (white_of_blank front)
  | object fields comma tail ih =>
    obtain ⟨formed, tailBlank, -⟩ := (Written.formed_object fields comma tail).mp formed
    rw [isLiteral_object] at literal
    rw [Written.write_object, Written.write_object]
    simp only [List.cons_append, List.append_assoc, List.nil_append]
    refine .char (by decide) (absurd · (by decide))
      (passes_separated (fun field member source text stops below => ?_)
        (stops_closing tailBlank (by decide)) (below.closing tailBlank (.inr rfl)))
    obtain ⟨label, front, content, back⟩ := formed field member
    rw [Written.memberText, Written.memberText, Written.elementText, Written.elementText]
    simp only [List.append_assoc]
    exact ((ih field member content (literal field member).2
      (stops.white (white_of_blank back)) (below.white (white_of_blank back))).white
        (white_of_blank front)).label label (literal field member).1

/-! ### Evaluations -/

section

variable {document : Written} {front back : List Char} {arguments : Json}

/-- **A document with arguments in it is read as the document with their values in it.** -/
theorem ofText_document (valid : arguments.Valid) (kept : arguments.AllNumbers Json.Number.Kept)
    (formed : document.Formed) (frontWhite : White front) (backWhite : White back)
    (within : (document.fill arguments).depth ≤ Json.maxNesting) {state : State}
    (written : state.output.toList = front ++ (document.write arguments.chars ++ back)) :
    Outcome.ofText state =
      .rendered
        { value := (document.fill arguments).merged
          recorded := state.recorded
          returned := false } := by
  unfold Outcome.ofText
  rw [written, Output.document_write (Output.inlay_chars valid kept) formed frontWhite backWhite
    within]

/-- The nodes of a document as a template, and what they write. -/
theorem parse_document (formed : document.Formed) (literal : IsLiteral document)
    (frontWhite : White front) (backWhite : White back) (gap : List Char) :
    ∃ nodes, parse (front ++ (document.write argumentsText ++ back)) = .ok nodes ∧
      Composes argumentsNode gap nodes (front ++ (document.write gap ++ back)) := by
  have passes : Passes argumentsText gap (front ++ (document.write argumentsText ++ back))
      (front ++ (document.write gap ++ back)) := by
    have behind : Passes argumentsText gap back back := by
      have whole : Passes argumentsText gap (back ++ []) (back ++ []) := Passes.nil.white backWhite
      rwa [List.append_nil] at whole
    have stops : Stops back := by
      have nothing : Stops [] := fun _ member => nomatch member
      have whole := nothing.white backWhite
      rwa [List.append_nil] at whole
    exact (passes_write formed literal stops behind).white frontWhite
  exact Parser.parse_passes (fun rest stops more room => reference?_arguments stops room) passes

end

section

variable {surroundings : Surroundings} {context : Context}

/-- What nodes come to that write the arguments and text around them. -/
theorem evaluateNodes_composes (valid : context.arguments.Valid)
    (signed : context.arguments.AllNumbers Json.Number.Signed) {nodes : List Node}
    {text : List Char} (composes : Composes argumentsNode context.arguments.chars nodes text) :
    (evaluateNodes surroundings nodes context).1 =
      .ofText { startState context with output := String.ofList text } := by
  have shown := startState_shows valid signed
  have once : ∀ output, executeNode (surroundings.environment context) argumentsNode
      { startState context with output } =
        .ok () { startState context with output := output ++ context.arguments.render } :=
    fun output => (shown.output output).executeNode_eq _
  have composes' : Composes argumentsNode context.arguments.render.toList nodes text := by
    rwa [Json.render, String.toList_ofList]
  have done := execute_composes once composes' ""
  rw [String.empty_append] at done
  have ran : runNodes surroundings nodes context =
      .ok () { startState context with output := String.ofList text } := done
  rw [evaluateNodes_eq, ran]
  rfl

end

namespace Evaluator

section

variable (uses : List Use) (surroundings : Surroundings) (context : Context)

theorem nodesOf_of_parse {source : String} {nodes : List Node}
    (parsed : parse source.toList = .ok nodes) : nodesOf source = .ok nodes := by
  unfold nodesOf Evaluator.compile
  rw [show ({} : Evaluator).parsed.get? source = none from rfl]
  simp only [parsed]

/-- What evaluating the text of some nodes comes to. -/
theorem evaluate_behind {source : String} {nodes : List Node}
    (parsed : parse source.toList = .ok nodes) :
    ((behind uses).evaluate surroundings source context).1 =
      (evaluateNodes surroundings nodes context).1 := by
  have evaluated := (keeps_behind uses).sound.evaluate_eq surroundings source context
  rw [nodesOf_of_parse parsed] at evaluated
  exact congrArg Prod.fst evaluated

/-- **The arguments stay what they are**, whatever characters are in their strings and keys.

Wherever a template finds them, `#return($ctx.args)` ends it with just these arguments, and
`$util.toJson($ctx.args)` writes their text and changes nothing else. A template of the first alone
comes to the arguments. If the reader brings the doubles among them back, a document with the second
in places of values comes to the document with the arguments in these places, and so does every
other template that writes such a document. The evaluator may have been used for anything before.

Whole numbers beyond the signed range are excluded, as templates cannot hold them. The limit on
nesting is that of the reader, which gets to read the document with the arguments in it. Commas in
front of closing brackets and braces may stand in the document; a key that it repeats counts once,
and if there is none, the value is just the document with its gaps filled. -/
theorem arguments_kept (valid : context.arguments.Valid)
    (signed : context.arguments.AllNumbers Json.Number.Signed) :
    (∀ (environment : Environment) (state : State), state.Shows context.arguments →
        (∀ nodes, Outcome.ofRun
            (execute environment (.returnValue argumentsExpr :: nodes) state) =
          .rendered
            { value := context.arguments
              recorded := state.recorded
              returned := true }) ∧
        executeNode environment argumentsNode state =
          .ok () { state with output := state.output ++ context.arguments.render }) ∧
      ((behind uses).evaluate surroundings "#return($ctx.args)" context).1 =
        .rendered { value := context.arguments, recorded := [], returned := true } ∧
      (context.arguments.AllNumbers Json.Number.Kept →
        ∀ (document : Written) (front back : List Char), document.Formed →
          White front → White back →
          (document.fill context.arguments).depth ≤ Json.maxNesting →
            (IsLiteral document →
              ((behind uses).evaluate surroundings
                (String.ofList (front ++ (document.write argumentsText ++ back))) context).1 =
                  .rendered
                    { value := (document.fill context.arguments).merged
                      recorded := []
                      returned := false }) ∧
            (∀ nodes state, runNodes surroundings nodes context = .ok () state →
              state.output.toList = front ++ (document.write context.arguments.chars ++ back) →
                (evaluateNodes surroundings nodes context).1 =
                  .rendered
                    { value := (document.fill context.arguments).merged
                      recorded := state.recorded
                      returned := false }) ∧
            ((document.fill .null).merged = document.fill .null →
              (document.fill context.arguments).merged = document.fill context.arguments)) := by
  refine ⟨fun environment state shown => ⟨shown.ofRun_return environment,
    shown.executeNode_eq environment⟩, ?_,
    fun kept document front back formed frontWhite backWhite within =>
      ⟨fun literal => ?_, fun nodes state ran written => ?_, fun own => ?_⟩⟩
  · rw [evaluate_behind uses surroundings context parse_return, evaluateNodes_eq]
    exact (startState_shows valid signed).ofRun_return (surroundings.environment context) []
  · obtain ⟨nodes, parsed, composes⟩ := parse_document formed literal frontWhite backWhite
      context.arguments.chars
    rw [evaluate_behind uses surroundings context (by rwa [String.toList_ofList]),
      evaluateNodes_composes valid signed composes]
    exact ofText_document valid kept formed frontWhite backWhite within
      (String.toList_ofList)
  · rw [evaluateNodes_eq, ran]
    exact ofText_document valid kept formed frontWhite backWhite within written
  · exact Written.merged_fill valid.merged_eq own

end

/-! ### Arguments that look like templates and documents -/

/-- Arguments with quotes, backslashes, `$`, `#`, commas in front of brackets and line breaks in
their strings and keys. -/
def tricky : Json :=
  .object
    [("a\"b\\", .string "$ctx.args #end \\\" ,] ,\x7d"),
      ("$util", .array [.string "\n\t\x01", .int (-9223372036854775808), .int 9223372036854775807,
        .number (.float 0.5), .string "##,]"]),
      ("", .null)]

/-- A template of a document with the arguments in it twice, and with commas in front of a closing
bracket and a closing brace. -/
def embedding : String :=
  "\n \x7b\"in\" : $util.toJson($ctx.args), \"all\":[$util.toJson($ctx.args) ,1,] ,\x7d\n"

/-- The document that the template writes. -/
def embedded : Written :=
  .object
    [(⟨[], ['i', 'n', '"'], "in", [' ']⟩, ⟨[' '], .gap, []⟩),
      (⟨[' '], ['a', 'l', 'l', '"'], "all", []⟩,
        ⟨[], .array [⟨[], .gap, [' ']⟩, ⟨[], .scalar ['1'] (.int 1), []⟩] true [], [' ']⟩)]
    true []

theorem embedded_formed : embedded.Formed := by
  have first : Label.Formed ⟨[], ['i', 'n', '"'], "in", [' ']⟩ := ⟨by decide, rfl, by decide⟩
  have second : Label.Formed ⟨[' '], ['a', 'l', 'l', '"'], "all", []⟩ := ⟨by decide, rfl, by decide⟩
  have list : (Written.array [⟨[], .gap, [' ']⟩, ⟨[], .scalar ['1'] (.int 1), []⟩] true
      []).Formed := by
    rw [Written.formed_array, List.forall_mem_cons, List.forall_mem_singleton]
    exact ⟨⟨⟨by decide, trivial, by decide⟩, by decide, ⟨rfl, rfl⟩, by decide⟩, by decide,
      fun _ => nofun⟩
  rw [embedded, Written.formed_object, List.forall_mem_cons, List.forall_mem_singleton]
  exact ⟨⟨⟨first, by decide, trivial, by decide⟩, second, by decide, list, by decide⟩, by decide,
    fun _ => nofun⟩

theorem embedded_literal : IsLiteral embedded := by
  have list : IsLiteral (.array [⟨[], .gap, [' ']⟩, ⟨[], .scalar ['1'] (.int 1), []⟩] true []) := by
    rw [isLiteral_array, List.forall_mem_cons, List.forall_mem_singleton]
    exact ⟨trivial, show LiteralText ['1'] by decide⟩
  rw [embedded, isLiteral_object, List.forall_mem_cons, List.forall_mem_singleton]
  exact ⟨⟨by decide, trivial⟩, by decide, list⟩

theorem tricky_valid : tricky.Valid := by
  have finite : (Json.Number.float 0.5).Valid := show Decimal.isFinite 0.5 = true by decide +kernel
  have low : (Json.Number.int (-9223372036854775808)).Valid := by
    show Json.minInt ≤ _ ∧ _ ≤ Json.maxNat
    decide
  have high : (Json.Number.int 9223372036854775807).Valid := by
    show Json.minInt ≤ _ ∧ _ ≤ Json.maxNat
    decide
  have distinct : ["a\"b\\", "$util", ""].Nodup := by decide
  exact ⟨distinct, trivial, ⟨trivial, low, high, finite, trivial, trivial⟩, trivial, trivial⟩

theorem tricky_signed : tricky.AllNumbers Json.Number.Signed := by
  have low : (Json.Number.int (-9223372036854775808)).Signed := by
    show Json.minInt ≤ _ ∧ _ ≤ Json.maxInt
    decide
  have high : (Json.Number.int 9223372036854775807).Signed := by
    show Json.minInt ≤ _ ∧ _ ≤ Json.maxInt
    decide
  exact ⟨trivial, ⟨trivial, low, high, trivial, trivial, trivial⟩, trivial, trivial⟩

theorem tricky_kept : tricky.AllNumbers Json.Number.Kept := by
  have double : (Json.Number.float 0.5).ReadsBack := by decide +kernel
  exact ⟨trivial, ⟨trivial, trivial, trivial, double, trivial, trivial⟩, trivial, trivial⟩

/-- **The tricky arguments** stay what they are. -/
theorem tricky_arguments :
    ((behind usesBefore).evaluate ⟨0, fun _ => ""⟩ embedding { arguments := tricky }).1 =
        .rendered
          { value := .object [("in", tricky), ("all", .array [tricky, .int 1])]
            recorded := []
            returned := false } ∧
      ((behind usesBefore).evaluate ⟨0, fun _ => ""⟩ "#return($ctx.args)"
          { arguments := tricky }).1 =
        .rendered { value := tricky, recorded := [], returned := true } := by
  obtain ⟨_, returned, documents⟩ := arguments_kept usesBefore ⟨0, fun _ => ""⟩
    { arguments := tricky } tricky_valid tricky_signed
  obtain ⟨rendered, _, whole⟩ := documents tricky_kept embedded ['\n', ' '] ['\n'] embedded_formed
    (by decide) (by decide) (by decide)
  refine ⟨?_, returned⟩
  have value := whole rfl
  have source : embedding = String.ofList
    (['\n', ' '] ++ (embedded.write argumentsText ++ ['\n'])) := rfl
  rw [source, rendered embedded_literal, value]
  rfl

end Evaluator

end FieldResolver.Template
