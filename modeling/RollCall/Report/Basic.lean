import RollCall.Json.Value
import RollCall.Terminal.Style
import RollCall.Text.Column

/-!
# Reports

The answer to a command can be shown as JSON or as text, and the text with or without colors.
-/

namespace RollCall

/-- How reports are shown. -/
structure Display where
  /-- Whether they are JSON texts. -/
  json : Bool
  /-- Whether texts have colors. -/
  colors : Bool
  /-- Whether texts are left out. -/
  quiet : Bool
deriving DecidableEq, Repr

/-- The answer to a command. -/
structure Report where
  /-- The answer as JSON. -/
  json : Json
  /-- The answer as text, with colors or without. -/
  text : Bool → String

namespace Report

/-- What is printed. -/
def shown (report : Report) (display : Display) : String :=
  if display.json then report.json.pretty ++ "\n"
  else if display.quiet then ""
  else report.text display.colors

/-! ## Cells -/

/-- A cell with its text on the left. -/
def left (width : Nat) (text : String) : String :=
  String.ofList (Text.padRight width text.toList)

/-- A cell with its text on the right. -/
def right (width : Nat) (text : String) : String :=
  String.ofList (Text.padLeft width text.toList)

/-- A cell with its text on the left; a longer text is cut. -/
def cut (width : Nat) (text : String) : String :=
  left width (String.ofList (Text.truncate width text.toList))

/-- The heads of the columns. -/
def heading (colors : Bool) (text : String) : String :=
  Style.dimmed.paint colors text ++ "\n"

end Report

end RollCall
