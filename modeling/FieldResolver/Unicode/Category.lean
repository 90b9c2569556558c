/-
**Classes of characters.**

Every code point has one general category of the Unicode database. From the categories come the
letters, the digits and the characters of words.
-/

import FieldResolver.Unicode.Packed
import FieldResolver.Text.Blank

namespace FieldResolver.Unicode

/-- The general categories. -/
inductive Category where
  | uppercaseLetter
  | lowercaseLetter
  | titlecaseLetter
  | modifierLetter
  | otherLetter
  | nonspacingMark
  | spacingMark
  | enclosingMark
  | decimalNumber
  | letterNumber
  | otherNumber
  | connectorPunctuation
  | dashPunctuation
  | openPunctuation
  | closePunctuation
  | initialPunctuation
  | finalPunctuation
  | otherPunctuation
  | mathSymbol
  | currencySymbol
  | modifierSymbol
  | otherSymbol
  | spaceSeparator
  | lineSeparator
  | paragraphSeparator
  | control
  | format
  | surrogate
  | privateUse
  | unassigned
deriving DecidableEq, Inhabited

namespace Category

/-- The two letters that a category is known by. -/
def abbreviation : Category → String
  | .uppercaseLetter => "Lu"
  | .lowercaseLetter => "Ll"
  | .titlecaseLetter => "Lt"
  | .modifierLetter => "Lm"
  | .otherLetter => "Lo"
  | .nonspacingMark => "Mn"
  | .spacingMark => "Mc"
  | .enclosingMark => "Me"
  | .decimalNumber => "Nd"
  | .letterNumber => "Nl"
  | .otherNumber => "No"
  | .connectorPunctuation => "Pc"
  | .dashPunctuation => "Pd"
  | .openPunctuation => "Ps"
  | .closePunctuation => "Pe"
  | .initialPunctuation => "Pi"
  | .finalPunctuation => "Pf"
  | .otherPunctuation => "Po"
  | .mathSymbol => "Sm"
  | .currencySymbol => "Sc"
  | .modifierSymbol => "Sk"
  | .otherSymbol => "So"
  | .spaceSeparator => "Zs"
  | .lineSeparator => "Zl"
  | .paragraphSeparator => "Zp"
  | .control => "Cc"
  | .format => "Cf"
  | .surrogate => "Cs"
  | .privateUse => "Co"
  | .unassigned => "Cn"

/-- All categories. -/
def all : List Category :=
  [.uppercaseLetter, .lowercaseLetter, .titlecaseLetter, .modifierLetter, .otherLetter,
   .nonspacingMark, .spacingMark, .enclosingMark, .decimalNumber, .letterNumber, .otherNumber,
   .connectorPunctuation, .dashPunctuation, .openPunctuation, .closePunctuation,
   .initialPunctuation, .finalPunctuation, .otherPunctuation, .mathSymbol, .currencySymbol,
   .modifierSymbol, .otherSymbol, .spaceSeparator, .lineSeparator, .paragraphSeparator, .control,
   .format, .surrogate, .privateUse, .unassigned]

/-- The mark of a category in the packed table. -/
def ofMark? : Char → Option Category
  | '0' => some .uppercaseLetter
  | '1' => some .lowercaseLetter
  | '2' => some .titlecaseLetter
  | '3' => some .modifierLetter
  | '4' => some .otherLetter
  | '5' => some .nonspacingMark
  | '6' => some .spacingMark
  | '7' => some .enclosingMark
  | '8' => some .decimalNumber
  | '9' => some .letterNumber
  | 'q' => some .otherNumber
  | 'r' => some .connectorPunctuation
  | 's' => some .dashPunctuation
  | 't' => some .openPunctuation
  | 'u' => some .closePunctuation
  | 'v' => some .initialPunctuation
  | 'w' => some .finalPunctuation
  | 'x' => some .otherPunctuation
  | 'y' => some .mathSymbol
  | 'z' => some .currencySymbol
  | 'Q' => some .modifierSymbol
  | 'R' => some .otherSymbol
  | 'S' => some .spaceSeparator
  | 'T' => some .lineSeparator
  | 'U' => some .paragraphSeparator
  | 'V' => some .control
  | 'W' => some .format
  | 'X' => some .surrogate
  | 'Y' => some .privateUse
  | 'Z' => some .unassigned
  | _ => none

/-- The whole code space as runs of one category each: the length of a run, then its mark. -/
def packed : String :=
  (String.join
   ["cAVBSDxBzDxBtBuBxByBxBsCxK8CxDyCxbK0BtBxBuBQBrBQbK1BtByBuBycBVBSBxEzBRBxBQBRB4BvByBWBRBQBRBy",
    "CqBQB1CxBQBqB4BwDqBxbH0ByH0bI1ByI1B0B1B0B1B0B1B0B1B0B1B0B1B0B1B0B1B0B1B0B1B0B1B0B1B0B1B0B1B0",
    "B1B0B1B0B1B0B1B0B1B0B1B0B1B0B1B0B1B0B1B0B1B0B1B0B1B0C1B0B1B0B1B0B1B0B1B0B1B0B1B0B1B0C1B0B1B0",
    "B1B0B1B0B1B0B1B0B1B0B1B0B1B0B1B0B1B0B1B0B1B0B1B0B1B0B1B0B1B0B1B0B1B0B1B0B1B0B1B0B1B0B1C0B1B0",
    "B1B0D1C0B1B0B1C0B1D0C1E0B1C0B1D0D1C0B1C0B1B0B1B0B1C0B1B0C1B0B1C0B1D0B1B0B1C0C1B4B0D1E4B0B2B1",
    "B0B2B1B0B2B1B0B1B0B1B0B1B0B1B0B1B0B1B0B1B0C1B0B1B0B1B0B1B0B1B0B1B0B1B0B1B0B1B0C1B0B2B1B0B1D0",
    "B1B0B1B0B1B0B1B0B1B0B1B0B1B0B1B0B1B0B1B0B1B0B1B0B1B0B1B0B1B0B1B0B1B0B1B0B1B0B1B0B1B0B1B0B1B0",
    "B1B0B1B0B1B0B1B0B1B0B1B0H1C0B1C0C1B0B1E0B1B0B1B0B1B0B1B0eF1C4bK1bC3EQM3OQF3HQB3BQB3bBQhA5B0B",
    "1B0B1B3BQB0B1CZB3D1BxB0EZCQB0BxD0BZB0BZC0B1bB0BZJ0cD1B0C1D0D1B0B1B0B1B0B1B0B1B0B1B0B1B0B1B0B",
    "1B0B1B0B1B0B1B0F1B0B1ByB0B1C0C1dD0dA1B0B1B0B1B0B1B0B1B0B1B0B1B0B1B0B1B0B1B0B1B0B1B0B1B0B1B0B",
    "1B0B1B0B1B0B1BRF5C7B0B1B0B1B0B1B0B1B0B1B0B1B0B1B0B1B0B1B0B1B0B1B0B1B0B1B0B1B0B1B0B1B0B1B0B1B",
    "0B1B0B1B0B1B0B1B0B1B0B1B0B1B0B1B0B1C0B1B0B1B0B1B0B1B0B1B0B1B0C1B0B1B0B1B0B1B0B1B0B1B0B1B0B1B",
    "0B1B0B1B0B1B0B1B0B1B0B1B0B1B0B1B0B1B0B1B0B1B0B1B0B1B0B1B0B1B0B1B0B1B0B1B0B1B0B1B0B1B0B1B0B1B",
    "0B1B0B1B0B1B0B1B0B1B0B1B0B1B0B1B0B1B0B1B0B1B0B1B0B1B0B1B0B1B0B1B0B1B0B1BZcG0CZB3GxcJ1BxBsCZC",
    "RBzBZcN5BsB5BxC5BxC5BxB5IZbL4EZE4CxLZGWDyCxBzCxCRL5BxBWDxcA4B3K4bF5K8ExC4B5gD4BxB4H5BWBRG5C3",
    "C5BRE5C4K8D4CRB4OxBZBWB4B5bO4bL5CZfJ4L5B4OZK8cB4J5C3BRDxB3CZB5CzbG4E5B3J5B3D5B3F5CZPxBZbJ4D5",
    "CZBxBZL4FZbI4BQH4CWFZJ5cJ4B3bI5BWcA5B6dG4B5B6B5B4D6I5E6B5C6B4H5K4C5CxK8BxB3P4B5C6BZI4CZC4CZb",
    "G4BZH4BZB4DZE4CZB5B4D6E5CZC6CZC6B5B4IZB6EZC4BZD4C5CZK8C4CzGqBRBzB4BxB5CZC5B6BZG4EZC4CZbG4BZH",
    "4BZC4BZC4BZC4CZB5BZD6C5EZC5CZD5DZB5HZE4BZB4HZK8C5D4B5BxKZC5B6BZJ4BZD4BZbG4BZH4BZC4BZF4CZB5B4",
    "D6F5BZC5B6BZC6B5CZB4PZC4C5CZK8BxBzHZB4G5BZB5C6BZI4CZC4CZbG4BZH4BZC4BZF4CZB5B4B6B5B6E5CZC6CZC",
    "6B5HZC5B6EZC4BZD4C5CZK8BRB4GqKZB5B4BZG4DZD4BZE4DZC4BZB4BZC4DZC4DZD4DZM4EZC6B5C6DZD6BZD6B5CZB",
    "4GZB6OZK8DqGRBzBRFZB5D6B5I4BZD4BZbH4BZbA4CZB5B4D5E6BZD5BZE5HZC5BZD4BZC4CZC4C5CZK8HZBxHqBRB4B",
    "5C6BxI4BZD4BZbH4BZK4BZF4CZB5B4B6B5F6BZB5C6BZC6C5HZC6FZD4BZC4C5CZK8BZC4B6MZC5C6J4BZD4BZcJ4C5B",
    "4D6E5BZD6BZD6B5B4BREZD4B6HqD4C5CZK8JqBRG4BZB5C6BZbC4DZbI4BZJ4BZB4CZH4DZB5EZD6D5BZB5BZI6GZK8C",
    "ZC6BxMZdA4B5C4H5EZBzG4B3I5BxK8CxcFZC4BZB4BZF4BZbI4BZB4BZK4B5C4J5B4CZF4BZB3BZH5BZK8CZE4cAZB4D",
    "RPxBRBxDRC5GRK8KqBRB5BRB5BRB5BtBuBtBuC6I4BZcE4EZO5B6F5BxC5F4L5BZcE5BZIRB5GRBZCRFxERCxcFZcL4C",
    "6E5B6G5B6C5C6C5B4K8GxG4C6C5E4D5B4D6C4H6D4E5N4B5C6C5G6B5B4B6K8D6B5CRcG0BZB0FZB0CZcL1BxB3D1beJ",
    "4BZE4CZH4BZB4BZE4CZcJ4BZE4CZcB4BZE4CZH4BZB4BZE4CZP4BZdJ4BZE4CZeD4CZD5JxbEqDZbA4KRGZfG0CZG1CZ",
    "BscgM4BRBxbB4BSbK4BtBuDZeL4DxD9I4HZbC4D5B6JZbD4C5B6CxJZbC4C5MZN4BZD4BZC5MZdE4C5B6H5I6B5C6L5D",
    "xB3DxBzB4B5CZK8GZKqGZGxBsExD5BWB5K8GZcD4B3dF4HZF4C5cC4B5B4FZeG4KZbP4BZD5E6C5D6EZC6B5G6D5EZBR",
    "DZCxK8bO4CZF4LZcM4EZbK4GZK8BqDZcCRbH4C5C6B5CZCxdF4B6B5B6H5BZB5B6B5C6I5G6K5CZB5K8GZK8GZHxB3Gx",
    "CZO5B7bP5CZM5bEZE5B6cP4B5B6F5B6B5F6B5C6I4BZCxK8HxKRJ5JRDxC5B6bO4B6E5C6C5B6D5C4K8cM4B5B6C5D6B",
    "5B6D5C6IZExcE4I6I5C6C5DZFxK8DZD4K8bO4G3CxJ1B0B1FZcL0CZD0IxIZD5BxN5B6H5E4B5G4B5C4B6C5B4FZcM1d",
    "P3N1B3cC1cF3eA5B0B1B0B1B0B1B0B1B0B1B0B1B0B1B0B1B0B1B0B1B0B1B0B1B0B1B0B1B0B1B0B1B0B1B0B1B0B1B",
    "0B1B0B1B0B1B0B1B0B1B0B1B0B1B0B1B0B1B0B1B0B1B0B1B0B1B0B1B0B1B0B1B0B1B0B1B0B1B0B1B0B1B0B1B0B1B",
    "0B1B0B1B0B1B0B1B0B1B0B1B0B1B0B1B0B1B0B1B0B1B0B1B0B1B0B1B0B1B0B1B0B1B0B1B0B1B0B1B0B1B0B1B0B1B",
    "0B1B0B1B0B1B0B1B0B1B0B1B0B1B0B1B0B1B0J1B0B1B0B1B0B1B0B1B0B1B0B1B0B1B0B1B0B1B0B1B0B1B0B1B0B1B",
    "0B1B0B1B0B1B0B1B0B1B0B1B0B1B0B1B0B1B0B1B0B1B0B1B0B1B0B1B0B1B0B1B0B1B0B1B0B1B0B1B0B1B0B1B0B1B",
    "0B1B0B1B0B1B0B1B0B1B0B1B0B1B0B1B0B1B0B1B0B1B0B1B0J1I0G1CZG0CZI1I0I1I0G1CZG0CZI1BZB0BZB0BZB0B",
    "ZB0I1I0O1CZI1I2I1I2I1I2F1BZC1E0B2BQB1DQD1BZC1E0B2DQE1CZC1E0BZDQI1F0DQCZD1BZC1E0B2CQBZLSFWGsC",
    "xBvBwBtCvBwBtBvIxBTBUFWBSJxBvBwExCrDxByBtBuLxByBxBrKxBSFWBZKWBqB3CZGqDyBtBuB3KqDyBtBuBZN3DZc",
    "CzOZN5E7B5D7M5PZCRB0ERB0CRB1D0C1D0B1BRB0CRByF0GRB0BRB0BRB0BRE0BRB1E0B1E4B1CRC1C0FyB0E1BRByCR",
    "B1BRbAqcD9B0B1E9BqCREZFyFRCyERByCRByCRByHRBybPRCyCRByBRBybPRbaMyIRBtBuBtBubERCyHRBtBufBRBybO",
    "RbJycIRGyeIRbGZLRbFZdMqeORbGqlHRByJRBydGRIygPRBypIRBtBuBtBuBtBuBtBuBtBuBtBuBtBubOqcMRFyBtBub",
    "PyBtBuBtBuBtBuBtBuBtBubAybaARiDyBtBuBtBuBtBuBtBuBtBuBtBuBtBuBtBuBtBuBtBuBtBudPyBtBuBtBucAyBt",
    "BubaCydARbFyCRGycHRCZiKRdA0dA1B0B1D0C1B0B1B0B1B0B1E0B1B0C1B0G1C3D0B1B0B1B0B1B0B1B0B1B0B1B0B1",
    "B0B1B0B1B0B1B0B1B0B1B0B1B0B1B0B1B0B1B0B1B0B1B0B1B0B1B0B1B0B1B0B1B0B1B0B1B0B1B0B1B0B1B0B1B0B1",
    "B0B1B0B1B0B1B0B1B0B1B0B1B0B1B0B1B0B1B0B1B0B1B0B1B0B1B0B1B0B1B0B1B0B1B0B1B0B1B0C1GRB0B1B0B1D5",
    "B0B1FZExBqCxcG1BZB1FZB1CZdI4HZB3BxOZB5bH4JZH4BZH4BZH4BZH4BZH4BZH4BZH4BZH4BZcA5CxBvBwBvBwDxBv",
    "BwBxBvBwJxBsCxBsBxBvBwCxBvBwBtBuBtBuBtBuBtBuFxB3KxCsExBsBxBtNxCRDxBtBuBtBuBtBuBtBuBscCZbKRBZ",
    "fJRMZnGRbKZbARBSDxBRB3B4B9BtBuBtBuBtBuBtBuBtBuCRBtBuBtBuBtBuBtBuBsBtCuBRJ9E5C6BsF3CRD9B3B4Bx",
    "CRBZfG4CZC5CQC3B4BsfK4BxD3B4FZcL4BZfO4BZCREqKRcA4cGRJZBRbA4bPRBZKqbORIqBRPqcARKqcHRPqbeARbjm",
    "A4eARfcbF4B3ehH4DZdHRJZcI4G3CxbaM4B3DxbA4K8C4bEZB0B1B0B1B0B1B0B1B0B1B0B1B0B1B0B1B0B1B0B1B0B1",
    "B0B1B0B1B0B1B0B1B0B1B0B1B0B1B0B1B0B1B0B1B0B1B0B1B4B5D7BxK5BxB3B0B1B0B1B0B1B0B1B0B1B0B1B0B1B0",
    "B1B0B1B0B1B0B1B0B1B0B1B0B1C3C5eG4K9C5GxIZbHQJ3CQB0B1B0B1B0B1B0B1B0B1B0B1B0D1B0B1B0B1B0B1B0B1",
    "B0B1B0B1B0B1B0B1B0B1B0B1B0B1B0B1B0B1B0B1B0B1B0B1B0B1B0B1B0B1B0B1B0B1B0B1B0B1B0B1B0B1B0B1B0B1",
    "B0B1B0B1B0B1B0B1B3I1B0B1B0B1C0B1B0B1B0B1B0B1B0B1B3CQB0B1B0B1B4B0B1B0D1B0B1B0B1B0B1B0B1B0B1B0",
    "B1B0B1B0B1B0B1B0B1F0B1F0B1B0B1B0B1B0B1B0B1B0B1B0B1B0B1E0B1B0B1C0B1B0B1B0B1B0B1B0B1B0B1B0B1B0",
    "B1B0bEZE3B0B1B4C3B1H4B5D4B5E4B5bH4C6C5B6ERB5DZGqCRBzBRGZdE4ExIZC6dC4bA6C5IZCxK8GZbC5G4DxB4Bx",
    "C4B5K8bM4I5CxbH4L5C6LZBxbN4DZD5B6cP4B5C6E5C6C5D6NxBZB3K8EZCxF4B5B3J4K8F4BZcJ4G5C6C5C6C5JZD4B",
    "5I4B5B6CZK8CZExbA4B3G4DRB4B6B5B6dC4B5B4D5C4C5F4C5B4B5B4bIZC4B3CxL4B6C5C6CxB4C3B6B5KZG4CZG4CZ",
    "G4JZH4BZH4BZcL1BQE3J1B3CQEZfA1cD4C6B5C6B5C6BxB6B5CZK8GZclkE4MZbH4EZdB4EZiaAXbjaAYbgO4CZgK4cG",
    "ZH1MZF1FZB4B5K4ByN4BZF4BZB4BZC4BZC4BZgM4bBQbARbgL4BuBtbAReA4CRdG4IRcAZM4BzDRbA5HxBtBuBxGZbA5",
    "BxCsCrBtBuBtBuBtBuBtBuBtBuBtBuBtBuBtBuCxBtBuExDrDxBZExBsBtBuBtBuBtBuDxByBsDyBZBxBzCxEZF4BZiH",
    "4CZBWBZDxBzDxBtBuBxByBxBsCxK8CxDyCxbK0BtBxBuBQBrBQbK1BtByBuByBtBuBxBtBuCxK4B3cN4C3bP4DZG4CZG",
    "4CZG4CZD4DZCzByBQBRCzBZBREyCRKZDWCRCZM4BZbK4BZbD4BZC4BZP4CZO4cCZhL4FZDxEZcNqDZJRdF9EqbBRCqDR",
    "BZNRDZBRcPZcNRB5iCZbN4DZdB4PZB5bLqEZcA4EqJZbE4B9I4B9FZcG4F5FZbO4BZBxcE4EZI4BxF9cKZcI0cI1eO4C",
    "ZK8GZcE0EZcE1EZcI4IZdE4LZBxL0BZP0BZH0BZC0BZL1BZP1BZH1BZC1DZdE4MZbdH4JZbG4KZI4bIZG3BZcK3BZJ3e",
    "FZG4CZB4BZcM4BZC4DZB4CZbH4BZBxIqbH4CRHqbP4IZJqdAZbD4BZC4FZFqbG4GqDZBxbK4FZBxbK4cGZdI4EZCqC4b",
    "AqCZcOqB4D5BZC5FZE5E4BZD4BZbN4CZD5EZB5JqHZJxHZbN4CqBxbN4DqcAZI4BRbM4C5EZFqHxJZdG4DZHxbG4CZIq",
    "bD4FZIqbC4HZExMZHqfAZeJ4dHZdD0NZdD1HZGqcE4E5IZK8GZK8E4B3B4bG0DZF5BsB3bG1IZCynAZbPqBZcK4BZC5B",
    "sCZC4bAZD4B3C4IZBxIRcBZG5bN4KqB4IZbG4L5EqFxbGZbC4E5ExcGZbF4HqbEZbH4JZB6B5B6dF4P5HxEZbEqK8B5C",
    "4C5B4JZD5B6cN4D6E5C6C5CxBWExB5KZBWCZbJ4HZK8GZD5cE4F5B6I5BZK8ExB4C6B4IZcD4B5CxB4JZC5B6dA4D6J5",
    "C6E4ExE5BxB6B5K8B4BxB4DxBZbEqLZbC4BZbJ4D6D5C6B5B6C5GxB5C4B5dOZH4BZB4BZE4BZP4BZK4BxGZcP4B5D6I",
    "5FZK8GZC5C6BZI4CZC4CZbG4BZH4BZC4BZF4BZC5B4C6B5E6CZC6CZD6CZB4GZB6FZF4C6CZH5DZF5LZK4BZB4CZB4BZ",
    "cG4BZB4D6G5BZB6CZB6BZE6BZC6B5B6B5B4B5B4CxBZCxIZC5bNZdF4D6I5C6D5B6B5E4FxK8CxBZBxB5D4bOZdA4D6G",
    "5B6B5E6C5B6C5C4BxB4IZK8kGZcP4D6E5CZE6C5B6C5bHxE4C5cCZdA4D6I5C6B5B6C5DxB4LZK8GZNxbDZcL4B5B6B5",
    "C6G5B6B5B4BxGZK8GZbE8bMZbL4CZB5B6B5C6E5B6F5EZK8CqDxBRH4lJZcM4D6J5B6C5BxgEZcA0cA1K8JqMZI4CZB4",
    "CZI4BZC4BZbI4G6BZC6CZC5B6B5B4B6B4B6B5DxJZK8eGZI4CZcH4D6E5CZC5E6B5B4BxB4B6bLZB4K5cI4G5B6B4E5I",
    "xB5IZB4G5C6D5cO4N5B6C5DxB4FxNZeJ4HZKxfGZB5B6D5B6B5B6fIZcB4BxOZK8GZJ4BZcF4B6H5BZG5B6B5B4FxKZK",
    "8bDqDZCxbO4CZbG5BZB6H5B6C5B6C5eJZH4BZC4BZcG4G5DZB5BZC5BZH5B4B5IZK8GZG4BZC4BZcA4F6BZC5BZC6B5B",
    "6B5B4HZK8GZcJ4B3C4EZK8pGZbD4C5C6CxHZC5B4B6N4BZcC4C6F5DZC6B5B6B5NxK8B5fFZB4PZbFqIREzbBRNZBxdj",
    "K4gGZgP9BZFxLZmE4keMZgB4CxNZedA4bAWB5G4P5KZpjL4FZceH4bklJZbO4M5D6D5K8gmGZcdJ4HZbP4BZK8EZCxeP",
    "4BZK8GZbO4CZF5BxKZdA4H5FxERE3BxBRKZK8BZHqBZbF4FZbD4blAZD3cI4C3DxK8mGZcA0cA1bHqExFZbJ0CZbJ1cM",
    "ZeL4EZB5B4dH6HZE5N3eAZC3BxB3B5LZC6C3D9JZbmnG4cJZcA4gBZhD4cbpNZE3BZH3BZC3BZbcD4PZB4bNZD4CZB4O",
    "ZE4IZbiM4jaEZgL4FZN4DZJ4HZK4CZBRC5BxEWpfMZpARK8DRDZblERGZbHRPZbARByPZcO5CZbH5JZhERdMZpGRKZcH",
    "RCZdMRC6D5DRG6IWI5CRH5bORE5dNRbFZeCRD5BRhKZbEqMZbEqMZfHRJZbJqiHZbK0bK1bK0H1BZbC1bK0bK1B0BZC0",
    "CZB0CZC0CZE0BZI0E1BZB1BZH1BZL1bK0bK1C0BZE0CZI0BZH0BZbK1C0BZE0BZF0BZB0DZH0BZbK1bK0bK1bK0bK1bK",
    "0bK1bK0bK1bK0bK1bK0bM1CZbJ0BybJ1ByG1bJ0BybJ1ByG1bJ0BybJ1ByG1bJ0BybJ1ByG1bJ0BybJ1ByG1B0B1CZdC",
    "8caARdH5ERdC5IRB5ORB5CRFxPZF5BZP5efAZK1B4bE1GZG1nFZH5BZbB5CZH5BZC5BZF5FZdO3cBZB5hAZcN4DZH5H3",
    "CZK8EZB4BRbeAZbO4B5bBZcM4E5K8FZBzbnAZbL4B3E5K8nGZbO4C5B4K8EZBxmAZbP4BZD4B5C4B5H4C5F4B5IZB4B3",
    "oAZH4BZE4BZC4BZP4BZmF4CZJqH5cJZcC0cC1H5B3EZK8EZCxdbBZdLqBRDqBzEqeMZcNqBRPqmCZE4BZbL4BZC4BZB4",
    "CZB4BZK4BZE4BZB4BZB4GZB4EZB4BZB4BZB4BZD4BZC4BZB4CZB4BZB4BZB4BZB4BZB4BZC4BZB4CZE4BZH4BZE4BZE4",
    "BZB4BZK4BZbB4FZD4BZF4BZbB4dEZCybaOZcMREZgERMZPRCZPRBZPRBZcFRKZNqkBRdIZbNRNZcMREZJRHZCROZGRjK",
    "ZpLRFQcnJRDZbBRDZNRDZnKRGZMREZBRPZMREZdIRIZKRGZcIRIZbORCZMREZCROZJycHZbfIRIZORCZNRDZLRDZdJRB",
    "ZBREZbARCZMREZKRHZjDRBZfMRK8BReaFZkgoA4cAZbbbO4CZbgiO4CZbndB4PZcgO4jkCZcbO4foCZbdeL4FZcbcK4k",
    "mliHZBWbOZgAWiAZpA5pobAZpppOYCZpppOYCZ"])

/-- The first code point and the category of every run. -/
def runs (start : Nat) : List Token → List (Nat × Category)
  | .number length :: .mark symbol :: rest =>
    match ofMark? symbol with
    | some category => (start, category) :: runs (start + length) rest
    | none => runs (start + length) rest
  | _ => []

/-- The runs in order. -/
def table : Array (Nat × Category) := (runs 0 (tokens 0 packed.toList)).toArray

end Category

/-- The general category of a character. -/
def category (c : Char) : Category :=
  match lastUpTo? Category.table c.toNat with
  | some (_, category) => category
  | none => .unassigned

/-- Whether a category is one of letters. -/
def Category.isLetter : Category → Bool
  | .uppercaseLetter | .lowercaseLetter | .titlecaseLetter | .modifierLetter | .otherLetter => true
  | _ => false

/-- Whether a category is one of marks. -/
def Category.isMark : Category → Bool
  | .nonspacingMark | .spacingMark | .enclosingMark => true
  | _ => false

/-- Whether a category is one of numbers. -/
def Category.isNumber : Category → Bool
  | .decimalNumber | .letterNumber | .otherNumber => true
  | _ => false

/-- The marks and symbols that count as alphabetic. -/
def otherAlphabetic : Array (Nat × Nat) :=
  unpackRanges (String.join
   ["deFAbNMceANBABBBBBAeIKdAMBGbAAgFGEDCBEAcDAbOPgGKgFBDIBCBDgKAdMLDGGbDdGBCOBBFCKBbNCdKGCBCBKAK",
    "BbNCdKEEBCBEAbOBDALCdKHBCBBbFBbGCECdKGCBCBJBKBbOAdLEDCBCKAcIEdJGBCBCIBLBbNCdKGBCBCIBLBPAMDdK",
    "GBCBCKAKBbNCeLFBABHbCBdNACGbCAgDACFBBbAAkDbCJKBcDgOLBACDbHDECBCCGDDNLBAKDghEBbOBbOBbOBeCbClM",
    "BcCAhGLEInOEdJJCbDeKBLCdBEdAOdMCbOICBdJKdCbCbjMcBgmBdDipGbPhihEHcCBbgCAIAbHEfIBdCPBAdJAcGEbM",
    "LcNDdALcFAeDNMAIBcNCdCABCCBFAcMEFAoNHepdDAifHEgiGCBBFDdbEDeBAbeBBeNCbaDCdFNcNBLCcNIJAdNCcELb",
    "CBdJCdAMOBfMICAGACAjNJbHDdKGCBCBKAKBfEIBACABDBBgHMBCgKbBoNGCGbNBfCOBAgKKgHNbaBMpHFBBCBDABAiO",
    "GCFEAbMJcKEBDbCKcONmIHmHHBGfDbFBNhKFDABBBCBADAeCEBBBDbfMDJBBAdAGDCebnNbAocAABdGHDfNBemkMAcdg",
    "BGBbACGBBBEgEAgfDACAHBFAcfBAhoIbJGbJGbJ"])

/-- The lower case characters that are not letters of that category. -/
def otherLowercase : Array (Nat × Nat) :=
  unpackRanges (String.join
   ["kKAPAbpFIHBbOEgAAdEAniBAmcPdONAcCcEclBANAbAMnDPdfAbJhjCBhkbOBnCAiBCDBdgCDJAfmbGACCBcJBInihFd",
    "N"])

/-- The upper case characters that are not letters of that category. -/
def otherUppercase : Array (Nat × Nat) := unpackRanges "cbgAPdeGbJbmmgAbJGbJGbJ"

/-- Whether a character is alphabetic. -/
def isAlphabetic (c : Char) : Bool :=
  if c.toNat < 128 then c.isAlpha
  else
    let category := category c
    category.isLetter || category == .letterNumber || inRanges otherAlphabetic c.toNat

/-- Whether a character is alphabetic or a number of any kind. -/
def isAlphanumeric (c : Char) : Bool :=
  if c.toNat < 128 then c.isAlphanum else isAlphabetic c || (category c).isNumber

/-- Whether a character is a decimal digit of any script. -/
def isDigit (c : Char) : Bool :=
  if c.toNat < 128 then c.isDigit else category c == .decimalNumber

/-- Whether a character is one of a word: alphabetic, a mark, a decimal digit, a connector or one
of the two joiners. -/
def isWordChar (c : Char) : Bool :=
  if c.toNat < 128 then c.isAlphanum || c == '_'
  else
    let category := category c
    isAlphabetic c || category.isMark || category == .decimalNumber ||
      category == .connectorPunctuation || c.toNat == 0x200C || c.toNat == 0x200D

/-- The ranges of the scripts that have names here. -/
def scripts : List (String × Array (Nat × Nat)) :=
  [("latin", unpackRanges
      (String.join
   ["eBbJGbJcPAPAFbGBbOBbmAcHEbkbLcFGdAFDFMBeFeBpPbhBANAbAMiNBGAbLAbBcIknHbPhkkCgFDfBbEOddAcKBIBD",
    "epjGGebKbJGbJicFFBcJBInheFbOGF"])),
   ("greek", unpackRanges
      (String.join
   ["dhADBCCDBAEABABCBABbDBdOOPbjcGEdCEEEfEAbeAbFCFCcFCFCHBABABABbOCdEBOBNCFBbCCCBIbcHAikdOAffnKe",
    "ObBAnafPeF"])),
   ("cyrillic", unpackRanges
      "eaAiECkIbhfAKkAAeMAbagHbPhieAfPfhiOBocaAdNcBA"),
   ("han", unpackRanges
      (String.join
   ["coiAbJBfIMnFcPABAbJIODdmEbjlPeAfbpPfjaAbgNCgJhfaIBMGjaaJkgnPcAbbbNCbgiNCbndAPcgNjkCcbNfoCbde",
    "KFcbcJ"])),
   ("hiragana", unpackRanges
      "daeBfFGCbhpgBbbObCAbNCeakNA"),
   ("katakana", unpackRanges
      "dakBfJCCpAPnAcOBfHmmaOJBcMlafCDBGBBBAbbPCdCAOD"),
   ("hangul", unpackRanges
      "bbaApPbocOBbaBfNhBbOeBbOhgoBbMciDclkDMbGEdAchkEbODFCFCFCC"),
   ("arabic", unpackRanges
      (String.join
   ["gaAEBFBNBCBbPBJLbJBgLBcBfAcPpAcBFeKBbMpcfAboNCiPcAPhAEBiGpgDbOeDFIIcBFnpaADBbKBBBACABJBDBABA",
    "GAEABABABCBBBACABABABABABBBACDBGBDBDBABJBbAFCBEBbAdEB"])),
   ("hebrew", unpackRanges
      "fjBdGIbKEFpfcIbJBEBABBBBBJ"),
   ("thai", unpackRanges
      "oaBdJFbL"),
   ("devanagari", unpackRanges
      "jaAfAEOCbJjpgAbPhcaAJ"),
   ("armenian", unpackRanges
      "fdBcFCdBCCpfiDE"),
   ("georgian", unpackRanges
      "bakAcFBAFACcKBDljAcKCCbaeAcFBAFA"),
   ("bengali", unpackRanges
      "jiADBHCBCbFBGBADDCICBCDIAEBBECbI"),
   ("tamil", unpackRanges
      "liCBBFDCBDDBBABBDBDCDLEEDCBDCAGAObEbbdmFdBNA")]

end FieldResolver.Unicode
