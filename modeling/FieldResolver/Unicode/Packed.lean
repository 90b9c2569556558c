/-
**Packed tables.**

The tables of the Unicode database are kept as text. A number is written in base sixteen, with the
letters `a` to `p` for digits that others follow and `A` to `P` for the last one. Any other
character is a mark of its own.
-/

namespace FieldResolver.Unicode

/-- A number or a mark of a packed table. -/
inductive Token where
  | number (value : Nat)
  | mark (symbol : Char)

/-- The tokens of a packed table, given the digits of the number being read. -/
def tokens (pending : Nat) : List Char → List Token
  | [] => []
  | c :: rest =>
    if 'a' ≤ c ∧ c ≤ 'p' then tokens (16 * pending + (c.toNat - 'a'.toNat)) rest
    else if 'A' ≤ c ∧ c ≤ 'P' then
      .number (16 * pending + (c.toNat - 'A'.toNat)) :: tokens 0 rest
    else .mark c :: tokens pending rest

/-- The numbers of a packed table. -/
def numbers (text : String) : List Nat :=
  (tokens 0 text.toList).filterMap fun
    | .number value => some value
    | .mark _ => none

/-- Ranges from the gaps in front of them and their lengths less one. -/
def ranges (start : Nat) : List Nat → List (Nat × Nat)
  | gap :: extent :: rest =>
    (start + gap, start + gap + extent) :: ranges (start + gap + extent + 1) rest
  | _ => []

/-- The ranges of a packed set. -/
def unpackRanges (text : String) : Array (Nat × Nat) := (ranges 0 (numbers text)).toArray

/-- The number of keys at or before `key` among the first `high`, of which the first `low` are. -/
def countUpTo {α : Type} (table : Array (Nat × α)) (key : Nat) : Nat → Nat → Nat → Nat
  | 0, low, _ => low
  | steps + 1, low, high =>
    if low < high then
      let middle := (low + high) / 2
      match table[middle]? with
      | some (first, _) =>
        if first ≤ key then countUpTo table key steps (middle + 1) high
        else countUpTo table key steps low middle
      | none => low
    else low

/-- The last entry of a sorted table whose key is at or before `key`. -/
def lastUpTo? {α : Type} (table : Array (Nat × α)) (key : Nat) : Option (Nat × α) :=
  match countUpTo table key 32 0 table.size with
  | 0 => none
  | count + 1 => table[count]?

/-- Whether a number lies in one of a table's ranges. -/
def inRanges (table : Array (Nat × Nat)) (n : Nat) : Bool :=
  match lastUpTo? table n with
  | some (_, last) => n ≤ last
  | none => false

end FieldResolver.Unicode
