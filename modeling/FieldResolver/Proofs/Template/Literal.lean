/-
**Text with a reference in it.**

Characters other than `$` and `#` pass through a template untouched; a backslash does so as well if
it does not stand in front of one of these. What a template of such characters and of one reference,
at any number of places, writes is its text with what the reference writes in these places.

* `Passes`: what such a template's text is with another text in place of the reference;
* `Composes`: what nodes write if they are text and the reference;
* `parse_passes`: such a template is parsed into such nodes;
* `execute_composes`: these nodes write their text and change nothing else.
-/

import FieldResolver.Proofs.Template.References
import FieldResolver.Proofs.Template.Steps

namespace FieldResolver.Template

/-- Whether a text does not go on with a segment of a reference. -/
def Stops (rest : List Char) : Prop := ∀ c ∈ rest.head?, c ≠ '.' ∧ c ≠ '['

/-- Whether a character is neither of the two that start something in a template. -/
def Literal (c : Char) : Prop := c ≠ '$' ∧ c ≠ '#'

instance (c : Char) : Decidable (Literal c) := inferInstanceAs (Decidable (c ≠ '$' ∧ c ≠ '#'))

/-- Whether a text is one of literal characters. -/
def LiteralText (text : List Char) : Prop := ∀ c ∈ text, Literal c

instance (text : List Char) : Decidable (LiteralText text) := List.decidableBAll _ text

/-- A template of literal characters and of one reference at any number of places, and its text with
another text in these places. -/
inductive Passes (call gap : List Char) : List Char → List Char → Prop
  | nil : Passes call gap [] []
  | char {c : Char} {source text : List Char} (literal : Literal c)
      (unescaped : c = '\\' → ∀ d ∈ source.head?, Literal d) (below : Passes call gap source text) :
      Passes call gap (c :: source) (c :: text)
  | call {source text : List Char} (stops : Stops source) (below : Passes call gap source text) :
      Passes call gap (call ++ source) (gap ++ text)

/-- Literal characters in front of what passes, the last of them no backslash. -/
theorem Passes.append {call gap front source text : List Char} (below : Passes call gap source text)
    (literal : LiteralText front) (last : ∀ c ∈ front.getLast?, c ≠ '\\') :
    Passes call gap (front ++ source) (front ++ text) := by
  induction front with
  | nil => exact below
  | cons c rest ih =>
    obtain ⟨first, literal⟩ := List.forall_mem_cons.mp literal
    refine .char first (fun backslash d member => ?_) (ih literal fun d member => ?_)
    · cases rest with
      | nil => exact absurd backslash (last c rfl)
      | cons next others =>
        obtain rfl : next = d := Option.some_inj.mp member
        exact literal next List.mem_cons_self
    · exact last d (by rw [List.getLast?_cons, member]; rfl)

/-! ### Nodes -/

/-- What nodes write that are text and a node for which another text stands. -/
inductive Composes (node : Node) (gap : List Char) : List Node → List Char → Prop
  | nil : Composes node gap [] []
  | text (content : String) {nodes : List Node} {text : List Char}
      (below : Composes node gap nodes text) :
      Composes node gap (.text content :: nodes) (content.toList ++ text)
  | call {nodes : List Node} {text : List Char} (below : Composes node gap nodes text) :
      Composes node gap (node :: nodes) (gap ++ text)

section

variable {node : Node} {gap : List Char}

theorem Composes.append {first second : List Node} {text more : List Char}
    (here : Composes node gap first text) (below : Composes node gap second more) :
    Composes node gap (first ++ second) (text ++ more) := by
  induction here with
  | nil => exact below
  | text content _ ih =>
    rw [List.append_assoc]
    exact .text content ih
  | call _ ih =>
    rw [List.append_assoc]
    exact .call ih

theorem Composes.flush {nodes : List Node} {text : List Char}
    (before : Composes node gap nodes.reverse text) (plain : List Char) :
    Composes node gap (Parser.flush nodes plain).reverse (text ++ plain.reverse) := by
  unfold Parser.flush
  split
  · rename_i empty
    rw [List.isEmpty_iff.mp empty, List.reverse_nil, List.append_nil]
    exact before
  · have last : Composes node gap [.text (String.ofList plain.reverse)] _ := .text _ .nil
    rw [String.toList_ofList, List.append_nil] at last
    rw [List.reverse_cons]
    exact before.append last

end

/-! ### Parsing -/

namespace Parser

variable {budget start : Nat} {nodes : List Node} {plain : List Char}

theorem block_end :
    block (budget + 1) .template start nodes plain [] =
      .ok (((flush nodes plain).reverse, .endOfText), []) := by
  rw [block]
  rfl

theorem block_char {c : Char} {rest : List Char} (literal : Literal c)
    (unescaped : c = '\\' → ∀ d ∈ rest.head?, Literal d) :
    block (budget + 1) .template start nodes plain (c :: rest) =
      block budget .template start nodes (c :: plain) rest := by
  rw [block]
  · rintro more rfl rfl
    exact (unescaped rfl '$' rfl).1 rfl
  · rintro more rfl rfl
    exact (unescaped rfl '#' rfl).2 rfl
  · exact fun _ same _ => literal.2 same
  · exact fun _ same _ => literal.2 same
  · exact fun _ same _ => literal.2 same
  · exact literal.2
  · exact literal.1

theorem block_reference {text rest : List Char} {root : String} {path : List Segment}
    (read : reference? budget ('$' :: text) = .ok (some ((root, path), rest))) :
    block (budget + 1) .template start nodes plain ('$' :: text) =
      block budget .template start (.reference root path :: flush nodes plain) [] rest := by
  rw [block]
  simp only [read]
  rfl

/-- A `#return` with something in parentheses. -/
theorem block_return {text rest : List Char} {node : Node}
    (read : returned budget ('(' :: text) = .ok (node, rest)) :
    block (budget + 1) .template start nodes plain ("#return(".toList ++ text) =
      block budget .template start (node :: flush nodes plain) [] rest := by
  show block (budget + 1) .template start nodes plain
    ('#' :: 'r' :: 'e' :: 't' :: 'u' :: 'r' :: 'n' :: '(' :: text) = _
  have directive : directive? ('#' :: 'r' :: 'e' :: 't' :: 'u' :: 'r' :: 'n' :: '(' :: text) =
    some (.return, '(' :: text) := rfl
  rw [block]
  · simp only [directive, read]
    rfl
  all_goals
    intro _ same
    cases same

section

variable {tail gap : List Char} {root : String} {path : List Segment}
  (reads : ∀ rest, Stops rest → ∀ more, 17 ≤ more →
    reference? more ('$' :: (tail ++ rest)) = .ok (some ((root, path), rest)))

include reads

/-- The nodes behind those read so far; every character leaves enough budget for those behind it. -/
theorem block_passes {source text : List Char} (passes : Passes ('$' :: tail) gap source text)
    {budget : Nat} (room : budgetFor source.length ≤ budget) {nodes : List Node} {done : List Char}
    (before : Composes (.reference root path) gap nodes.reverse done) (plain : List Char) :
    ∃ all, block budget .template start nodes plain source = .ok ((all, .endOfText), []) ∧
      Composes (.reference root path) gap all (done ++ plain.reverse ++ text) := by
  induction passes generalizing budget nodes done plain with
  | nil =>
    obtain ⟨budget, rfl⟩ : ∃ smaller, budget = smaller + 1 :=
      ⟨budget - 1, by unfold budgetFor at room; omega⟩
    rw [List.append_nil]
    exact ⟨_, block_end, before.flush plain⟩
  | @char c source text literal unescaped _ ih =>
    obtain ⟨budget, rfl⟩ : ∃ smaller, budget = smaller + 1 :=
      ⟨budget - 1, by unfold budgetFor at room; omega⟩
    have less : budgetFor source.length ≤ budget := by
      unfold budgetFor at room ⊢
      rw [List.length_cons] at room
      omega
    rw [block_char literal unescaped]
    obtain ⟨all, read, composes⟩ := ih less before (c :: plain)
    refine ⟨all, read, ?_⟩
    rw [List.reverse_cons] at composes
    simpa using composes
  | @call source text stops _ ih =>
    obtain ⟨budget, rfl⟩ : ∃ smaller, budget = smaller + 1 :=
      ⟨budget - 1, by unfold budgetFor at room; omega⟩
    have less : budgetFor source.length ≤ budget := by
      unfold budgetFor at room ⊢
      rw [List.length_append, List.length_cons] at room
      omega
    have enough : 17 ≤ budget := by
      unfold budgetFor at room
      omega
    rw [List.cons_append, block_reference (reads source stops budget enough)]
    have here : Composes (.reference root path) gap [.reference root path] _ := .call .nil
    have behind := (before.flush plain).append here
    rw [← List.reverse_cons, List.append_nil] at behind
    obtain ⟨all, read, composes⟩ := ih less behind []
    refine ⟨all, read, ?_⟩
    simpa using composes

/-- **A template of literal characters and a reference** is parsed into text and the reference. -/
theorem parse_passes {source text : List Char} (passes : Passes ('$' :: tail) gap source text) :
    ∃ nodes, parse source = .ok nodes ∧ Composes (.reference root path) gap nodes text := by
  have nothing : Composes (.reference root path) gap [].reverse [] := .nil
  obtain ⟨all, read, composes⟩ := block_passes reads passes (Nat.le_refl _) nothing []
  refine ⟨all, ?_, composes⟩
  unfold parse
  rw [read]
  rfl

end

end Parser

/-! ### Running -/

section

variable {environment : Environment} {node : Node} {state : State}

theorem execute_cons {nodes : List Node} {middle : State}
    (done : executeNode environment node state = .ok () middle) :
    execute environment (node :: nodes) state = execute environment nodes middle := by
  rw [execute]
  exact Run.bind_of_ok done

theorem execute_cons_of_error {nodes : List Node} {interrupt : Interrupt} {middle : State}
    (ended : executeNode environment node state = .error interrupt middle) :
    execute environment (node :: nodes) state = .error interrupt middle := by
  rw [execute]
  exact Run.bind_of_error ended

/-- **Nodes that are text and a reference write their text** and change nothing else, if the
reference does so. -/
theorem execute_composes {gap : String}
    (once : ∀ output, executeNode environment node { state with output } =
      .ok () { state with output := output ++ gap })
    {nodes : List Node} {text : List Char} (composes : Composes node gap.toList nodes text)
    (output : String) :
    execute environment nodes { state with output } =
      .ok () { state with output := output ++ String.ofList text } := by
  induction composes generalizing output with
  | nil =>
    rw [String.ofList_nil, String.append_empty]
    rfl
  | text content _ ih =>
    have written : executeNode environment (.text content) { state with output } =
        .ok () { state with output := output ++ content } := rfl
    rw [execute_cons written, ih, String.append_assoc, String.ofList_append, String.ofList_toList]
  | call _ ih =>
    rw [execute_cons (once output), ih, String.append_assoc, String.ofList_append,
      String.ofList_toList]

end

end FieldResolver.Template
