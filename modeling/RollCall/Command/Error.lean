import RollCall.Config.File
import RollCall.Query.Error
import RollCall.Query.Resolution
import RollCall.Record.Selection
import RollCall.Vault.Ledger

/-!
# Failures of commands

Why a command failed. Each failure has a code for programs and an exit code.
-/

namespace RollCall

/-- Why a command failed. -/
inductive CommandError where
  /-- A text is no query. -/
  | query (error : SyntaxError)
  /-- A query selects nothing at all. -/
  | resolve (error : ResolveError)
  /-- The vault failed. -/
  | vault (error : StorageError)
  /-- A record could not be read or written. -/
  | ledger (error : LedgerError)
  /-- There is no such state. -/
  | unknownState (error : UnknownState)
  /-- No record is selected. -/
  | selection (error : SelectionError)
  /-- An attendee is not among the entries of the record that was written. -/
  | notRecorded (attendee : String)
  /-- Something is wrong with the configuration. -/
  | config (error : ConfigError)
  /-- A file outside the vault could not be written. -/
  | disk (fault : DiskFault)
deriving DecidableEq

namespace CommandError

/-- The wording of the reason. -/
def message : CommandError → String
  | query error => s!"query error: {error.message}"
  | resolve error => s!"resolve error: {error.message}"
  | vault error => s!"vault error: {error.message}"
  | ledger error => error.message
  | unknownState error => error.message
  | selection error => error.message
  | notRecorded attendee => s!"attendee '{attendee}' was not recorded"
  | config error => s!"configuration error: {error.message}"
  | disk fault => s!"I/O error: {fault.message}"

/-- The code of a failure, which stays the same when its wording changes. -/
def code : CommandError → String
  | query _ => "QUERY_ERROR"
  | resolve _ => "RESOLVE_ERROR"
  | vault _ | ledger (.storage _) => "VAULT_ERROR"
  | ledger _ => "PERSISTENCE_ERROR"
  | unknownState _ | selection _ | notRecorded _ => "NOT_FOUND"
  | config _ => "CONFIG_ERROR"
  | disk _ => "IO_ERROR"

/-- The exit code of the program. -/
def exitCode : CommandError → Nat
  | query _ => 1
  | resolve _ => 2
  | vault _ | ledger (.storage _) | disk _ => 3
  | ledger _ | unknownState _ | selection _ | notRecorded _ => 4
  | config _ => 5

/-- A failure as it is printed. -/
def shown (error : CommandError) (json : Bool) : String :=
  if json then
    (Json.object [("error", .object [("code", .string error.code),
      ("message", .string error.message)])]).pretty
  else s!"Error: {error.message}"

end CommandError

end RollCall
