import RollCall.Command.Run
import Std.Time.DateTime.Timestamp

/-!
# The program

Reads the parts of the file system that a command can need onto a disk, runs the command, and carries
out what it did to the disk.
-/

namespace RollCall.Program

/-- Puts what is at a path onto the disk; what lies below it too, if that is asked for. What cannot be
read is taken not to be there. -/
partial def load (path : String) (place : Place) (deep : Bool) (disk : Disk) : IO Disk := do
  let file := (← IO.currentDir) / path
  if ← file.isDir then
    let mut disk := disk.put place .folder
    if deep then
      for entry in ← file.readDir do
        disk ← load s!"{path}/{entry.fileName}" (place ++ [entry.fileName]) true disk
    return disk
  else if ← file.pathExists then
    try
      return disk.put place (.file (.ofBytes (← IO.FS.readBinFile file)))
    catch _ => return disk
  else return disk

/-- Puts what the steps of a path lead through onto the disk, and what is at its end. -/
def loadAlong (deep : Bool) (disk : Disk) (path : String) : IO Disk := do
  let mut disk := disk
  let mut place := if Route.isAbsolute path then [] else disk.current
  let steps := Route.parts path
  for step in steps do
    place := if step = "." then place else if step = ".." then place.dropLast else place ++ [step]
    if place ≠ [] ∧ (disk.node? place).isNone then
      disk ← load ("/" ++ "/".intercalate place) place false disk
  if deep && !place.isEmpty then load ("/" ++ "/".intercalate place) place true disk else return disk

/-- The disk with all that an invocation can need. -/
def diskFor (environment : Environment) (invocation : Invocation) : IO Disk := do
  let here := (← IO.currentDir).toString
  let disk ← loadAlong false { (∅ : Disk) with current := Route.parts here } here
  let disk ← match Config.filePath environment with
    | .ok path => loadAlong false disk path
    | .error _ => pure disk
  let config := (Config.ofUser environment disk).toOption.getD .standard
  let disk ← match invocation.vault?.or config.vault? with
    | some root => do loadAlong false (← loadAlong true disk root) (Route.join root config.metadataPath)
    | none => pure disk
  match invocation.command with
  | .exportTo _ (some path) => loadAlong false disk path
  | _ => return disk

/-- Makes the folders and writes the files that one disk has and another has not. A file is written
beside its place first and then takes it. -/
def carryOut (before after : Disk) : IO Unit := do
  for (place, node) in after.nodes.reverse do
    let path := "/" ++ "/".intercalate place
    if before.node? place ≠ some node then
      match node with
      | .folder => IO.FS.createDirAll path
      | .file (.bytes _) => pure ()
      | .file (.text text) =>
        IO.FS.writeFile (path ++ ".tmp") text
        IO.FS.rename (path ++ ".tmp") path

/-- What the system tells a command. -/
def environment : IO Environment := do
  let now ← Std.Time.Timestamp.now
  return {
    configFile? := ← IO.getEnv "ATTEND_CONFIG"
    configHome? := ← IO.getEnv "XDG_CONFIG_HOME"
    home? := ← IO.getEnv "HOME"
    vault? := ← IO.getEnv "ATTEND_VAULT"
    colorless := ((← IO.getEnv "NO_COLOR").getD "") ≠ ""
    now := .ofSeconds now.toSecondsSinceUnixEpoch.val }

/-- Runs the program. -/
def run (arguments : List String) : IO UInt32 := do
  let environment ← environment
  match Invocation.read environment.vault? arguments with
  | .error fault =>
    if fault.exitCode = 0 then IO.println fault.message else IO.eprintln s!"error: {fault.message}"
    return UInt32.ofNat fault.exitCode
  | .ok invocation =>
    let before ← diskFor environment invocation
    let (answer, after) := invocation.run environment before
    carryOut before after
    match answer with
    | .ok output =>
      IO.print output
      return 0
    | .error error =>
      IO.eprintln (error.shown invocation.json)
      return UInt32.ofNat error.exitCode

end RollCall.Program

/-- The program. -/
def main (arguments : List String) : IO UInt32 :=
  RollCall.Program.run arguments
