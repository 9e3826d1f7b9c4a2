import AsmServer.Text.Numeral

/-!
# Tables of characters

Classes and mappings of characters are long lists. A table is written as words between
blanks, and a word holds the numbers of characters in hexadecimal.
-/

namespace AsmServer

namespace Text

/-- The number that a word of a table writes in hexadecimal. -/
def tableNumber (digits : Text) : Nat := (readDigits? 16 digits).getD 0

/-- The pair that a word writes as two numbers around a hyphen. One number alone is paired
with itself. -/
def tablePair (word : Text) : Nat × Nat :=
  match cutAt? ['-'] word with
  | some (first, second) => (tableNumber first, tableNumber second)
  | none => (tableNumber word, tableNumber word)

/-- The pairs of a table, such as the first and the last character of ranges. -/
def tablePairs (table : String) : List (Nat × Nat) := (words table.toList).map tablePair

/-- Whether `n` lies in one of the closed ranges. -/
def inRanges (ranges : List (Nat × Nat)) (n : Nat) : Bool :=
  ranges.any fun (first, last) => first ≤ n && n ≤ last

end Text

end AsmServer
