import RollCall.Command.Workspace
import RollCall.Report.Config

/-!
# Running commands

What the program prints for an invocation, or why it fails, and the disk that it leaves behind. A failed
command prints nothing. Commands that need no vault run even if the configuration cannot be read.
-/

namespace RollCall

namespace Invocation

/-- How reports are shown, given what the configuration says about colors. -/
def display (invocation : Invocation) (environment : Environment) (colors? : Option Bool) : Display where
  json := invocation.json
  colors := !invocation.noColor && !environment.colorless && colors?.getD true
  quiet := invocation.quiet

/-- What the program says about itself. -/
def greeting : String :=
  "attend - attendance codeblocks in markdown vaults\nUse --help for usage information\n"

/-- Shows a query. -/
def showQuery (display : Display) (expression : String) : Except CommandError String :=
  match Query.parse expression with
  | .error error => .error (.query error)
  | .ok query => .ok ((Report.ofQuery query none).shown display)

/-- Shows or changes the configuration. The path of its file is shown even if the program is to be
quiet. -/
def configure (environment : Environment) (display : Display) (disk : Disk) (action : ConfigAction) :
    Except ConfigError String × Disk :=
  match Config.filePath environment with
  | .error error => (.error error, disk)
  | .ok path =>
    match action with
    | .path =>
      (.ok ((Report.ofConfigPath path (disk.hasNode path)).shown { display with quiet := false }), disk)
    | .show =>
      match Config.load disk path with
      | .error error => (.error error, disk)
      | .ok config => (.ok ((Report.ofConfig path (disk.hasNode path) config).shown display), disk)
    | .assign key value =>
      match Config.load disk path with
      | .error error => (.error error, disk)
      | .ok config =>
        match config.assign key value with
        | .error error => (.error error, disk)
        | .ok config =>
          match config.save disk path with
          | .error error => (.error error, disk)
          | .ok disk => (.ok ((Report.ofAssignment path key value).shown display), disk)

/-- Runs a command that needs a vault; the others print nothing here. A table is printed as it is,
whatever else is asked for. -/
def runIn (workspace : Workspace) (now : Timestamp) (display : Display) (command : Command) :
    Except CommandError String × Disk :=
  let shown := fun (report : Except CommandError Report) => report.map (Report.shown · display)
  match command with
  | .query expression _ => (shown (workspace.query expression), workspace.disk)
  | .listBlocks path? search => (shown (workspace.listBlocks path? search), workspace.disk)
  | .showBlock path selection => (shown (workspace.showBlock path selection), workspace.disk)
  | .recordState path attendee change note selection =>
    let (report, disk) := workspace.recordState path attendee change note selection
    (shown report, disk)
  | .exportTo search output? =>
    let (report, disk) := workspace.exportTo now search output?
    (shown report, disk)
  | .printExport search => ((workspace.matrix search).map fun matrix => matrix.text ++ "\n", workspace.disk)
  | .config _ | .completions _ | .greet => (.ok "", workspace.disk)

/-- Runs a command on a disk. -/
def run (environment : Environment) (invocation : Invocation) (disk : Disk) :
    Except CommandError String × Disk :=
  let config := Config.ofUser environment disk
  let display := invocation.display environment (config.toOption.bind Config.colors?)
  match invocation.command with
  | .query expression false => (showQuery display expression, disk)
  | .config action =>
    let (answer, disk) := configure environment display disk action
    (answer.mapError .config, disk)
  | .completions _ => (.ok "", disk)
  | .greet => (.ok (if display.quiet then "" else greeting), disk)
  | command =>
    match config with
    | .error error => (.error (.config error), disk)
    | .ok config =>
      match Workspace.ofConfig invocation.vault? config disk with
      | .error error => (.error error, disk)
      | .ok workspace => runIn workspace environment.now display command

end Invocation

end RollCall
