import RollCall.Names.Suggestion
import RollCall.Terminal.Style
import RollCall.Text.Hexadecimal
import RollCall.Text.LowerCase

/-!
# Attendance states

The states that can be recorded. A document holds the key of a state, which is its name in lower
case; a state is named on the command line whatever the case of its letters A to Z.

A state is the program's `StateConfig`; `named` and `ofKey?` are the `state` and the `state_for_key`
of a configuration.
-/

namespace RollCall

/-- A state in which an attendee can be. -/
structure AttendanceState where
  /-- The name that is shown. -/
  name : String
  /-- The mark that stands before the name. -/
  icon : String
  /-- The color of both, written as `#rrggbb`. -/
  color : String
deriving DecidableEq, Repr

namespace AttendanceState

/-- The states of a new configuration. -/
def standard : List AttendanceState :=
  [⟨"Present", "✓", "#007e91"⟩, ⟨"Absent", "✗", "#e50000"⟩, ⟨"Excused", "!", "#a35c00"⟩]

/-- What is written into documents. -/
def key (state : AttendanceState) : String :=
  Text.lowerCase state.name

/-- The number that two hexadecimal digits stand for; a plus may stand in the place of the first. -/
def hexPair? (a b : Char) : Option Nat :=
  if a = '+' then Text.hexValue? b
  else
    match Text.hexValue? a, Text.hexValue? b with
    | some high, some low => some (16 * high + low)
    | _, _ => none

/-- The style of a state whose color is written as it should be. -/
def style? (state : AttendanceState) : Option Style :=
  match state.color.toList with
  | ['#', a, b, c, d, e, f] =>
    match hexPair? a b, hexPair? c d, hexPair? e f with
    | some red, some green, some blue => some (.color red green blue)
    | _, _, _ => none
  | _ => none

/-- The mark and the name. -/
def label (state : AttendanceState) : String :=
  s!"{state.icon} {state.name}"

/-- The mark and the name in the color of the state. -/
def shown (state : AttendanceState) (colors : Bool) : String :=
  match state.style? with
  | some style => style.paint colors state.label
  | none => state.label

end AttendanceState

/-- Why a state is not known: none has the name, but one may have a similar name. -/
structure UnknownState where
  /-- The name. -/
  name : String
  /-- A similar name. -/
  suggestion : Option String
  /-- The names of all states. -/
  known : List String
deriving DecidableEq, Repr

/-- The wording of the reason. -/
def UnknownState.message : UnknownState → String
  | ⟨name, some suggestion, _⟩ => s!"unknown state '{name}'. Did you mean '{suggestion}'?"
  | ⟨name, none, known⟩ =>
    let names := ", ".intercalate known
    s!"unknown state '{name}'. Valid states: {names}"

namespace AttendanceState

/-- The state with a name. -/
def named (states : List AttendanceState) (name : String) : Except UnknownState AttendanceState :=
  match states.find? fun state => Text.eqIgnoringAsciiCase state.name name with
  | some state => .ok state
  | none =>
    let known := states.map AttendanceState.name
    .error ⟨name, suggest? name known, known⟩

/-- The state that a document means by a key. -/
def ofKey? (states : List AttendanceState) (key : String) : Option AttendanceState :=
  states.find? fun state => state.key = key

/-- How a key in a document is shown: none as a dash, that of no state as it is. -/
def showKey (states : List AttendanceState) (colors : Bool) (key : String) : String :=
  if key = "" then Style.dimmed.paint colors "-"
  else
    match ofKey? states key with
    | none => key
    | some state => state.shown colors

end AttendanceState

end RollCall
