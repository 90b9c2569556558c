/-
**The answer is the last line.**

A process may print whatever it likes in front of its answer. White space there goes. Anything else
keeps the output from being JSON as a whole, also where it is JSON itself or opens what the answer
could close. What is read then is the last line, which is the answer alone.

* `lastLine?_append`: the last line of a text that ends with something visible;
* `trim_output`: what is left of an output without the white space around it;
* `json?_output`: what it is read as;
* `result_last_line`: the answer of a process whose last line is a compact text.
-/

import FieldResolver.Proofs.Json.Lines
import FieldResolver.Proofs.Template.Documents
import FieldResolver.Source.FunctionProcess

namespace FieldResolver.FinishedProcess

open Json (maxNesting)
open Template.Output (White)

/-- The last line of a text that ends with something visible. -/
theorem lastLine?_append {line : List Char} (alone : '\n' ∉ line) (trimmed : Text.trim line = line)
    (visible : line ≠ []) (log : List Char) :
    lastLine? (String.ofList (log ++ '\n' :: line)) = some (String.ofList line) := by
  have shown : String.ofList line ≠ "" := fun none => visible (String.ofList_injective none)
  rw [lastLine?, String.toList_ofList, List.splitOn_append_cons_self,
    List.splitOn_eq_singleton alone, List.map_append, List.reverse_append]
  show List.find? _ (String.ofList (Text.trim line) :: _) = _
  rw [trimmed]
  exact List.find?_cons_of_pos (bne_iff_ne.mpr shown)

section

variable {value : Json} (valid : value.Valid) (kept : value.AllNumbers Json.Number.Kept)

include valid kept

/-- A compact text has no white space around it. -/
theorem trim_chars {front back : List Char} (frontWhite : White front) (backWhite : White back) :
    Text.trim (front ++ (value.chars ++ back)) = value.chars := by
  have whole := Template.Output.trim_write Template.Output.inlay_null
    (Json.Written.formed_ofJson valid kept) frontWhite backWhite
  rwa [Json.Written.write_ofJson] at whole

/-- **What is left of an output**: the answer, with what was visible above it. -/
theorem trim_output (log : List Char) {white : List Char} (trailing : White white) :
    Text.trim (log ++ '\n' :: (value.chars ++ white)) = value.chars ∨
      ∃ c rest, Text.isBlank c = false ∧
        Text.trim (log ++ '\n' :: (value.chars ++ white)) = c :: rest ++ '\n' :: value.chars := by
  cases left : log.dropWhile Text.isBlank with
  | nil =>
    have blank : White (log ++ ['\n']) := by
      refine List.forall_mem_append.mpr ⟨List.dropWhile_eq_nil_iff.mp left, ?_⟩
      exact List.forall_mem_singleton.mpr rfl
    have whole := trim_chars valid kept blank trailing
    rw [List.append_assoc] at whole
    exact .inl whole
  | cons c rest =>
    have visible : Text.isBlank c = false := Runs.stops left
    obtain ⟨d, more, head, -⟩ := (Json.solid_chars valid kept).start
    have last : ∀ d ∈ (c :: rest ++ '\n' :: value.chars).getLast?, Text.isBlank d = false := by
      have ends := (Template.Output.inlay_chars valid kept).visible
      rw [head] at ends ⊢
      rwa [List.getLast?_append, List.getLast?_cons_cons, List.getLast?_cons, Option.some_or,
        ← List.getLast?_cons]
    have front : White (log.takeWhile Text.isBlank) := fun _ => List.mem_takeWhile_imp
    have split : log ++ '\n' :: (value.chars ++ white) =
        log.takeWhile Text.isBlank ++ (c :: rest ++ '\n' :: value.chars ++ white) := by
      rw [← left, List.append_assoc, List.cons_append, ← List.append_assoc,
        List.takeWhile_append_dropWhile]
    refine .inr ⟨c, rest, visible, ?_⟩
    rw [split]
    exact Template.Output.trim_append front trailing visible last

/-- A compact text is read as its value. -/
theorem parse?_render (within : value.depth ≤ maxNesting) :
    Json.parse? value.render = some value := by
  have read := Template.Output.read_of_solid (Json.solid_chars valid kept) within
  rw [Json.parse?, Json.render, String.toList_ofList, read, valid.merged_eq]
  rfl

/-- **An output is read as the answer**, whatever stands above it. -/
theorem json?_output (within : value.depth ≤ maxNesting) (log : List Char) {white : List Char}
    (trailing : White white) :
    json? (String.ofList (Text.trim (log ++ '\n' :: (value.chars ++ white)))) = some value := by
  have answer := parse?_render valid kept within
  rcases trim_output valid kept log trailing with alone | ⟨c, rest, visible, below⟩
  · rw [alone]
    show (Json.parse? value.render <|> _) = _
    rw [answer]
    rfl
  · have whole : Json.parse? (String.ofList (c :: rest ++ '\n' :: value.chars)) = none := by
      cases read : Json.parse? (String.ofList (c :: rest ++ '\n' :: value.chars)) with
      | none => rfl
      | some found =>
        rw [Json.parse?, String.toList_ofList] at read
        refine absurd (Fallible.toOption_ok read) (Json.read_lines_ne_ok valid kept ?_ rest)
        cases blank : Json.isBlank c with
        | false => rfl
        | true => exact absurd (Template.Output.isBlank_of_isBlank blank) (by simp [visible])
    have none : White [] := fun _ member => nomatch member
    have trimmed : Text.trim value.chars = value.chars := by
      have alone := trim_chars valid kept none none
      rwa [List.nil_append, List.append_nil] at alone
    obtain ⟨d, more, head, -⟩ := (Json.solid_chars valid kept).start
    have some : value.chars ≠ [] := by rw [head]; exact List.cons_ne_nil d more
    have last := lastLine?_append (Json.oneLine_chars valid) trimmed some (c :: rest)
    rw [below, json?, whole, last]
    exact answer

end

/-- **A process answers with its last line**, whatever it prints above it and among its messages, if
that line is the compact text of a value that reports no error. -/
theorem result_last_line {process : FinishedProcess} {value : Json} {log white : String}
    (succeeded : process.succeeded = true)
    (printed : process.output = log ++ "\n" ++ value.render ++ white)
    (trailing : White white.toList) (valid : value.Valid)
    (kept : value.AllNumbers Json.Number.Kept) (within : value.depth ≤ maxNesting)
    (noError : ∀ message, value.field? "errorMessage" ≠ some (.string message)) :
    process.result = .ok value := by
  have found := json?_output valid kept within log.toList trailing
  have text : log.toList ++ '\n' :: (value.chars ++ white.toList) = process.output.toList := by
    simp [printed, Json.render]
  have noReport : FunctionError.ofErrorMessage? value = none := by
    unfold FunctionError.ofErrorMessage?
    cases field : value.field? "errorMessage" with
    | none => rfl
    | some message =>
      cases message with
      | string text => exact absurd field (noError text)
      | _ => rfl
  rw [text] at found
  rw [result, if_pos succeeded, Text.trimmed, found]
  dsimp only
  rw [noReport]

/-- A process that opens containers and a string in front of its answer. -/
theorem result_behind_log :
    FinishedProcess.result
        { ending := .exited 0
          output := "[1, \x7b\"n\":\n[\"\n\x7b\"errorMessage\":null,\"items\":[-7,\"]\\n\"]\x7d\r\n"
          messages := "\x7b\"message\":\"late\"\x7d" } =
      .ok (.object
        [("errorMessage", .null), ("items", .array [.int (-7), .string "]\n"])]) := by
  have printed : "[1, \x7b\"n\":\n[\"\n\x7b\"errorMessage\":null,\"items\":[-7,\"]\\n\"]\x7d\r\n" =
      "[1, \x7b\"n\":\n[\"" ++ "\n" ++ Json.render (.object
        [("errorMessage", .null), ("items", .array [.int (-7), .string "]\n"])]) ++ "\r\n" := by
    decide +kernel
  have field : Json.field? (.object
      [("errorMessage", .null), ("items", .array [.int (-7), .string "]\n"])]) "errorMessage" =
        some .null := rfl
  refine result_last_line rfl printed (by decide)
    ⟨by decide, trivial, ⟨⟨by decide, by decide⟩, trivial, trivial⟩, trivial⟩
    ⟨trivial, ⟨trivial, trivial, trivial⟩, trivial⟩ (by decide) fun message reports => ?_
  rw [field] at reports
  cases reports

end FieldResolver.FinishedProcess
