import RollCall.Config.Basic
import RollCall.Report.Basic

/-!
# Reports on the configuration

What is configured, what was changed, and where the configuration is kept.
-/

namespace RollCall.Report

/-- The line of a state. -/
def stateLine (state : AttendanceState) : String :=
  s!"  {state.icon} {state.name} ({state.color})\n"

/-- The report on a configuration and its file. -/
def ofConfig (path : String) (isThere : Bool) (config : Config) : Report where
  json := .object [("config", config.json), ("exists", .bool isThere), ("path", .string path)]
  text colors :=
    Style.bold.paint colors (Style.green.paint colors "Configuration") ++ "\n\n" ++
      s!"File: {path}\nExists: {Config.word isThere}\n\nSettings:\n" ++
      "  vault: " ++ config.vault?.getD "(not set)" ++ s!"\n  metadata: {config.metadataPath}\n" ++
      "\n[output]\n" ++
      ((config.colors?.map fun value => s!"  color: {Config.word value}\n").getD "") ++
      "\n[states]\n" ++ String.join (config.states.map stateLine)

/-- The report on a setting that was changed. -/
def ofAssignment (path key value : String) : Report where
  json := .object [("key", .string key), ("path", .string path), ("status", .string "success"),
    ("value", .string value)]
  text _ := s!"Set {key} = {value}\n"

/-- The report on where the configuration is kept. -/
def ofConfigPath (path : String) (isThere : Bool) : Report where
  json := .object [("exists", .bool isThere), ("path", .string path)]
  text _ := path ++ "\n"

end RollCall.Report
