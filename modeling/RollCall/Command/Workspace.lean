import RollCall.Command.Error
import RollCall.Command.Invocation
import RollCall.Export.Matrix
import RollCall.Report.Attendees
import RollCall.Report.Blocks
import RollCall.Report.Export
import RollCall.Report.Query
import RollCall.Vault.Folder
import RollCall.Vault.Snapshot

/-!
# Commands on a vault

An opened vault and the commands that need one. A command answers with a report or fails; either way it
leaves a disk behind.

A workspace is the program's `VaultContext`.
-/

namespace RollCall

/-- A vault that is opened for commands. -/
structure Workspace where
  /-- The documents. -/
  vault : FolderVault
  /-- Tags and links of the documents. -/
  snapshot : Snapshot
  /-- The settings of the user. -/
  config : Config

namespace Workspace

/-- Opens the vault at a path, or the configured one. -/
def ofConfig (path? : Option String) (config : Config) (disk : Disk) :
    Except CommandError Workspace :=
  match path?.or config.vault? with
  | none => .error (.config .noVault)
  | some root =>
    if disk.isFolder root then
      match Snapshot.load disk (Route.join root config.metadataPath) with
      | .error error => .error (.vault error)
      | .ok snapshot => .ok ⟨⟨disk, root⟩, snapshot, config⟩
    else .error (.config (.vaultMissing root))

/-- The index of the vault. -/
def index (workspace : Workspace) : Except CommandError VaultIndex :=
  (VaultIndex.load workspace.vault workspace.snapshot).mapError .vault

/-- The documents that a query selects. -/
def resolve (workspace : Workspace) (query : Query) : Except CommandError NameSet := do
  (← workspace.index).resolve query |>.mapError .resolve

/-- The blocks of a document. -/
def readBlocks (workspace : Workspace) (path : String) : Except CommandError (List DocumentBlock) :=
  (Ledger.readBlocks workspace.vault path).mapError .ledger

/-- The record of a document that a selection names. -/
def pick (workspace : Workspace) (path : String) (selection : Selection) :
    Except CommandError Record := do
  (selection.pick path (← workspace.readBlocks path)).mapError .selection

/-! ## Commands that read -/

/-- Shows a query and what it selects. -/
def query (workspace : Workspace) (expression : String) : Except CommandError Report := do
  let index ← workspace.index
  let query ← (Query.parse expression).mapError .query
  return .ofQuery query (some (← (index.resolve query).mapError .resolve))

/-- Lists the blocks of a document or of the vault. Those without a record are always listed. -/
def listBlocks (workspace : Workspace) (path? : Option String) (search : Search) :
    Except CommandError Report := do
  let blocks ← match path? with
    | some path => workspace.readBlocks (Path.ofArgument path)
    | none => do pure (← workspace.index).blocks.all
  return .ofBlocks (blocks.filter fun block => block.record?.all search.accepts)

/-- Lists the attendees of a block. -/
def showBlock (workspace : Workspace) (path : String) (selection : Selection) :
    Except CommandError Report := do
  let path := Path.ofArgument path
  let record ← workspace.pick path selection
  let resolved ← workspace.resolve record.query
  return .ofAttendees workspace.config.states path record (record.effectiveEntries resolved)

/-- A table of the records of the vault. -/
def matrix (workspace : Workspace) (search : Search) : Except CommandError Matrix := do
  let index ← workspace.index
  (Matrix.ofRecords index.lookup (search.records index.blocks.all)).mapError .resolve

/-! ## Commands that write -/

/-- The disk under the vault. -/
def disk (workspace : Workspace) : Disk := workspace.vault.disk

/-- The key of the state that is recorded. -/
def stateKey (workspace : Workspace) : StateChange → Except CommandError String
  | .clear => .ok ""
  | .toState name =>
    match AttendanceState.named workspace.config.states name with
    | .error error => .error (.unknownState error)
    | .ok state => .ok state.key

/-- Records the state of an attendee in the block that a selection names. -/
def recordState (workspace : Workspace) (path attendee : String) (change : StateChange)
    (note : String) (selection : Selection) : Except CommandError Report × Disk :=
  let path := Path.ofArgument path
  let attendee := Path.ofArgument attendee
  match workspace.stateKey change with
  | .error error => (.error error, workspace.disk)
  | .ok state =>
    match workspace.pick path selection with
    | .error error => (.error error, workspace.disk)
    | .ok target =>
      match Ledger.setState workspace.vault path target attendee state note with
      | (.error error, vault) => (.error (.ledger error), vault.disk)
      | (.ok record, vault) =>
        match record.entries.find? attendee with
        | none => (.error (.notRecorded attendee), vault.disk)
        | some entry => (.ok (.ofRecorded workspace.config.states path record entry), vault.disk)

/-- Writes a table of the records to a file, a new one in the vault if none is named. -/
def exportTo (workspace : Workspace) (now : Timestamp) (search : Search) (output? : Option String) :
    Except CommandError Report × Disk :=
  match workspace.matrix search with
  | .error error => (.error error, workspace.disk)
  | .ok matrix =>
    let report := fun path => Report.ofExport path matrix.rows.length matrix.attendees.length
    match output? with
    | some path =>
      match workspace.disk.write path matrix.text with
      | .error fault => (.error (.disk fault), workspace.disk)
      | .ok disk => (.ok (report path), disk)
    | none =>
      let name := Matrix.fileName now
      match Storage.write workspace.vault name matrix.text with
      | (.error error, vault) => (.error (.vault error), vault.disk)
      | (.ok (), vault) => (.ok (report (workspace.vault.fullPath name)), vault.disk)

end Workspace

end RollCall
