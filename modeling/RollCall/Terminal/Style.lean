/-!
# Styles of a terminal

A styled text stands between two control sequences, which the terminal does not show. Where colors are
off, a styled text is the text itself.
-/

namespace RollCall

/-- How a text looks. -/
inductive Style where
  /-- In heavy letters. -/
  | bold
  /-- In faint letters. -/
  | dimmed
  /-- In red. -/
  | red
  /-- In green. -/
  | green
  /-- In a color with these shares of red, green and blue. -/
  | color (red green blue : Nat)
deriving DecidableEq, Repr

namespace Style

/-- A control sequence: the escape character and the text that says what to do. -/
def sequence (action : String) : String :=
  "\x1b[" ++ action ++ "m"

/-- What turns a style on. -/
def opening : Style → String
  | bold => sequence "1"
  | dimmed => sequence "2"
  | red => sequence "31"
  | green => sequence "32"
  | color r g b => sequence s!"38;2;{r};{g};{b}"

/-- What turns a style off. -/
def closing : Style → String
  | bold | dimmed => sequence "0"
  | red | green | color .. => sequence "39"

/-- A text in a style, if there are colors. -/
def paint (style : Style) (colors : Bool) (text : String) : String :=
  if colors then style.opening ++ text ++ style.closing else text

end Style

end RollCall
