import RollCall.Text.EditDistance
import RollCall.Text.LowerCase

/-!
# Suggestions

The name somebody probably meant: the known name with the fewest differences in spelling, when it
has few enough.

`suggest?` is the program's `find_similar_name`, and `maxSuggestionDistance` its
`MAX_SUGGESTION_DISTANCE`.
-/

namespace RollCall

/-- The greatest edit distance at which a name is still suggested. -/
def maxSuggestionDistance : Nat := 3

/-- The edit distance between two names whatever their case. -/
def nameDistance (a b : String) : Nat :=
  Text.editDistance (Text.lower a.toList) (Text.lower b.toList)

/-- The first element with the least key. -/
def firstMin? {α : Type} (key : α → Nat) : List α → Option α
  | [] => none
  | a :: as =>
    match firstMin? key as with
    | none => some a
    | some b => if key b < key a then some b else some a

/-- The known name that is nearest to `name`, the first of several. Nothing is suggested when it is
too far away, nor when it differs by its case alone. -/
def suggest? (name : String) (known : List String) : Option String :=
  match firstMin? (nameDistance name) (known.filter (· ≠ "")) with
  | none => none
  | some best =>
    let distance := nameDistance name best
    if 0 < distance ∧ distance ≤ maxSuggestionDistance then some best else none

end RollCall
