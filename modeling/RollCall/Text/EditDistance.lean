/-!
# Edit distance

The number of characters that have to be inserted, deleted or replaced to turn one text into the
other. The distances from a prefix of the first text to all prefixes of the second form a row, and
one more character of the first text gives the next row.
-/

namespace RollCall.Text

/-- The entries of the next row after its first: `left` is the entry just found, `corner` the one
above it, and the list holds what is left of the row above. -/
def nextDistances (c : Char) : (target : List Char) → (left corner : Nat) → List Nat → List Nat
  | t :: target, left, corner, above :: row =>
    let here := min (min (left + 1) (above + 1)) (corner + if t = c then 0 else 1)
    here :: nextDistances c target here above row
  | _, _, _, _ => []

/-- The row of one more character. -/
def nextRow (target : List Char) (row : List Nat) (c : Char) : List Nat :=
  match row with
  | [] => []
  | corner :: row => (corner + 1) :: nextDistances c target (corner + 1) corner row

/-- The least number of insertions, deletions and replacements between two texts. -/
def editDistance (source target : List Char) : Nat :=
  (source.foldl (nextRow target) (List.range (target.length + 1))).getLastD 0

example : editDistance "kitten".toList "sitting".toList = 3 := by decide
example : editDistance [] "abc".toList = 3 := by decide
example : editDistance "ab".toList "ba".toList = 2 := by decide

end RollCall.Text
