import RollCall.Config.State
import RollCall.Json.Value
import RollCall.Toml.Reader

/-!
# Configurations

What a user sets once for all commands, and its written form, a TOML text. Whatever version a text
names, it is read in the same way and written back as version 1.
-/

namespace RollCall

/-- The settings of a user. -/
structure Config where
  /-- The path of the vault. -/
  vault? : Option String
  /-- The path of the snapshot of tags and links, below the vault. -/
  metadata? : Option String
  /-- Whether there are colors. -/
  colors? : Option Bool
  /-- The states that can be recorded. -/
  states : List AttendanceState
deriving DecidableEq, Repr

namespace Config

/-- The version of the written form. -/
def version : Nat := 1

/-- The configuration of a user who has set nothing. -/
def standard : Config := ⟨none, none, none, AttendanceState.standard⟩

instance : Inhabited Config := ⟨standard⟩

/-- The path of the snapshot below the vault. -/
def metadataPath (config : Config) : String :=
  config.metadata?.getD ".attendance/metadata.json"

/-! ## Reading -/

/-- The value of a key that may be missing, read by a function. -/
def optional? {α : Type} (read : Toml → Option α) (entries : TomlEntries) (key : String) :
    Option (Option α) :=
  match entries.find? key with
  | none => some none
  | some value => (read value).map some

/-- A text. -/
def text? : Toml → Option String
  | .string text => some text
  | _ => none

/-- A truth value. -/
def boolean? : Toml → Option Bool
  | .boolean value => some value
  | _ => none

/-- A version: a number below 2 ^ 32. -/
def version? : Toml → Option Int
  | .integer n => if 0 ≤ n ∧ n < 4294967296 then some n else none
  | _ => none

/-- Whether there are colors, as the table of output says. -/
def output? : Toml → Option (Option Bool)
  | .table _ entries => optional? boolean? entries "color"
  | .array (color :: _) => (boolean? color).map some
  | _ => none

/-- A state, whose fields are named or stand in order. -/
def state? : Toml → Option AttendanceState
  | .table _ entries => do
    let field := fun key => (TomlEntries.find? entries key).bind text?
    return ⟨← field "name", ← field "icon", ← field "color"⟩
  | .array (name :: icon :: color :: _) => do
    return ⟨← text? name, ← text? icon, ← text? color⟩
  | _ => none

/-- The states of a list. -/
def states? : Toml → Option (List AttendanceState)
  | .array items => items.mapM state?
  | .tables elements => elements.mapM fun entries => state? (.table .opened entries)
  | _ => none

/-- The configuration that a table stands for. Keys that mean nothing are passed over. -/
def ofEntries? (entries : TomlEntries) : Option Config := do
  let _ ← optional? version? entries "version"
  let vault? ← optional? text? entries "vault"
  let metadata? ← optional? text? entries "metadata"
  let colors? ← optional? output? entries "output"
  let states? ← optional? states? entries "states"
  return ⟨vault?, metadata?, colors?.join, states?.getD AttendanceState.standard⟩

/-- The configuration that a text stands for. -/
def parse? (text : String) : Option Config :=
  (Toml.parse? text).bind ofEntries?

/-! ## Writing -/

/-- A line that gives a text to a key. -/
def line (key value : String) : String :=
  key ++ " = " ++ String.ofList (Toml.quoted value.toList) ++ "\n"

/-- The word for a truth value. -/
def word (value : Bool) : String :=
  if value then "true" else "false"

/-- The lines of a state. -/
def stateLines (state : AttendanceState) : String :=
  "\n[[states]]\n" ++ line "name" state.name ++ line "icon" state.icon ++ line "color" state.color

/-- The written form. -/
def text (config : Config) : String :=
  s!"version = {version}\n" ++
    ((config.vault?.map (line "vault")).getD "") ++
    ((config.metadata?.map (line "metadata")).getD "") ++
    "\n[output]\n" ++
    ((config.colors?.map fun colors => s!"color = {word colors}\n").getD "") ++
    String.join (config.states.map stateLines)

/-- The JSON form, its keys in ascending order. -/
def json (config : Config) : Json :=
  let optional := fun (key : String) (value : Option Json) =>
    (value.map fun value => (key, value)).toList
  .object (optional "metadata" (config.metadata?.map .string) ++
    [("output", .object (optional "color" (config.colors?.map .bool))),
      ("states", .array (config.states.map fun state =>
        .object [("color", .string state.color), ("icon", .string state.icon),
          ("name", .string state.name)]))] ++
    optional "vault" (config.vault?.map .string) ++ [("version", .number version)])

end Config

end RollCall
