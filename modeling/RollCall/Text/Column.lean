/-!
# Columns

The cells of a table: widths count characters.
-/

namespace RollCall.Text

/-- A cell with its text on the left; a text wider than the cell is kept whole. -/
def padRight (width : Nat) (text : List Char) : List Char :=
  text ++ List.replicate (width - text.length) ' '

/-- A cell with its text on the right; a text wider than the cell is kept whole. -/
def padLeft (width : Nat) (text : List Char) : List Char :=
  List.replicate (width - text.length) ' ' ++ text

/-- A text of at most `width` characters; a longer one is cut and ends in three dots. -/
def truncate (width : Nat) (text : List Char) : List Char :=
  if width < text.length then text.take (width - 3) ++ ['.', '.', '.'] else text

end RollCall.Text
