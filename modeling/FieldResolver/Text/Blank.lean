/-
**White space.**

The characters of the Unicode property `White_Space`, and trimming. Every character that core calls
white space is one of them (`isBlank_of_isWhitespace`).
-/

namespace FieldResolver.Text

/-- Whether a character is white space. -/
def isBlank (c : Char) : Bool :=
  let n := c.toNat
  decide (9 ≤ n ∧ n ≤ 13) || n == 0x20 || n == 0x85 || n == 0xA0 || n == 0x1680 ||
    decide (0x2000 ≤ n ∧ n ≤ 0x200A) || n == 0x2028 || n == 0x2029 || n == 0x202F ||
    n == 0x205F || n == 0x3000

theorem isBlank_of_isWhitespace {c : Char} (white : c.isWhitespace = true) : isBlank c = true := by
  simp only [Char.isWhitespace, Bool.or_eq_true, decide_eq_true_eq] at white
  rcases white with ((rfl | rfl) | rfl) | rfl <;> decide

/-- Drops white space in front. -/
def trimStart (text : List Char) : List Char := text.dropWhile isBlank

/-- Drops white space behind. -/
def trimEnd (text : List Char) : List Char := (text.reverse.dropWhile isBlank).reverse

/-- Drops white space at both ends. -/
def trim (text : List Char) : List Char := trimEnd (trimStart text)

/-- Drops white space at both ends of a string. -/
def trimmed (text : String) : String := String.ofList (trim text.toList)

end FieldResolver.Text
