import RollCall.Calendar.Timestamp
import RollCall.Config.Basic
import RollCall.Disk.Access

/-!
# The configuration file

Where the configuration of a user is kept, how it is read and written, and how one setting is changed.
-/

namespace RollCall

/-- What a command is told by the system it runs on. -/
structure Environment where
  /-- The path of the configuration file, if it is named. -/
  configFile? : Option String
  /-- The folder of all configurations, if it is named. -/
  configHome? : Option String
  /-- The home folder of the user. -/
  home? : Option String
  /-- The path of the vault, if it is named. -/
  vault? : Option String
  /-- Whether colors are unwanted. -/
  colorless : Bool
  /-- The moment at which the command runs. -/
  now : Timestamp

/-- What is wrong with a configuration. -/
inductive ConfigError where
  /-- The file has no place. -/
  | noFolder
  /-- The file cannot be read. -/
  | unreadable (fault : DiskFault)
  /-- The file is not written as it should be. -/
  | unparsable
  /-- There is no state. -/
  | noStates
  /-- No vault is named. -/
  | noVault
  /-- The vault is no folder. -/
  | vaultMissing (path : String)
  /-- The path of the snapshot does not start in the vault. -/
  | metadataNotRelative (path : String)
  /-- A word is no truth value. -/
  | invalidBoolean (word : String)
  /-- There is no such setting. -/
  | unknownKey (key : String)
  /-- The folder of the file cannot be made. -/
  | folderNotMade (fault : DiskFault)
  /-- The file cannot be written. -/
  | unwritable (fault : DiskFault)
deriving DecidableEq, Repr

/-- The wording of what is wrong. -/
def ConfigError.message : ConfigError → String
  | noFolder => "Could not determine config directory"
  | unreadable fault => s!"Failed to read config: {fault.message}"
  | unparsable => "Failed to parse config"
  | noStates => "at least one state must be configured"
  | noVault =>
    "no vault configured. Pass --vault, set ATTEND_VAULT or run 'attend config set vault <dir>'"
  | vaultMissing path => s!"vault directory '{path}' does not exist"
  | metadataNotRelative path => s!"metadata path '{path}' must be relative to the vault"
  | invalidBoolean word =>
    s!"Invalid boolean value '{word}'. Use true/false, yes/no, 1/0, or on/off"
  | unknownKey key =>
    s!"Unknown config key '{key}'. Valid keys: vault, metadata, output.color"
  | folderNotMade fault => s!"Failed to create config directory: {fault.message}"
  | unwritable fault => s!"Failed to write config: {fault.message}"

namespace Config

/-- The path of the configuration file. -/
def filePath (environment : Environment) : Except ConfigError String :=
  match environment.configFile?, environment.configHome?, environment.home? with
  | some path, _, _ => .ok path
  | none, some folder, _ => .ok (Route.join (Route.join folder "attend") "config.toml")
  | none, none, some home =>
    .ok (Route.join (Route.join (Route.join home ".config") "attend") "config.toml")
  | none, none, none => .error .noFolder

/-- The configuration in a file; the standard one if nothing is there. -/
def load (disk : Disk) (path : String) : Except ConfigError Config :=
  if disk.hasNode path then
    match disk.read path with
    | .error fault => .error (.unreadable fault)
    | .ok text =>
      match parse? text with
      | none => .error .unparsable
      | some config => if config.states = [] then .error .noStates else .ok config
  else .ok standard

/-- The configuration of the user. -/
def ofUser (environment : Environment) (disk : Disk) : Except ConfigError Config :=
  match filePath environment with
  | .error error => .error error
  | .ok path => load disk path

/-- The disk with the folder of a file. -/
def makeParent (disk : Disk) (path : String) : Except ConfigError Disk :=
  match Route.parent? path with
  | none => .ok disk
  | some folder =>
    match disk.makeFolders folder with
    | .error fault => .error (.folderNotMade fault)
    | .ok disk => .ok disk

/-- Writes a configuration into a file. -/
def save (config : Config) (disk : Disk) (path : String) : Except ConfigError Disk :=
  match makeParent disk path with
  | .error error => .error error
  | .ok disk =>
    match disk.write path config.text with
    | .error fault => .error (.unwritable fault)
    | .ok disk => .ok disk

/-- The truth value that a word stands for, whatever its case. -/
def truthValue? (word : String) : Option Bool :=
  let word := Text.lowerCase word
  if word ∈ ["true", "yes", "1", "on"] then some true
  else if word ∈ ["false", "no", "0", "off"] then some false
  else none

/-- The configuration with one setting changed. -/
def assign (config : Config) (key value : String) : Except ConfigError Config :=
  if key = "vault" then .ok { config with vault? := some value }
  else if key = "metadata" then
    if Route.isAbsolute value then .error (.metadataNotRelative value)
    else .ok { config with metadata? := some value }
  else if key = "output.color" then
    match truthValue? value with
    | none => .error (.invalidBoolean value)
    | some colors => .ok { config with colors? := some colors }
  else .error (.unknownKey key)

end Config

end RollCall
