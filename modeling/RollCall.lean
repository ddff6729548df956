import RollCall.Main
import RollCall.Vault.Memory
import RollCall.Index.Worker
import RollCall.Proofs.Text.Line
import RollCall.Proofs.Query.Spelling
import RollCall.Proofs.Query.Grammar
import RollCall.Proofs.Query.Canonical
import RollCall.Proofs.Calendar.Date
import RollCall.Proofs.Block.Entry
import RollCall.Proofs.Block.Body
import RollCall.Proofs.Block.Scan
import RollCall.Proofs.Block.Splice
import RollCall.Proofs.Disk.Access
import RollCall.Proofs.Vault.Storage
import RollCall.Proofs.Vault.Ledger
import RollCall.Proofs.Record.Selection
import RollCall.Proofs.Command.RecordState
import RollCall.Proofs.Index.TwoWayMap
import RollCall.Proofs.Query.Acceptance
import RollCall.Proofs.Query.Placement
import RollCall.Proofs.Query.Misplaced
import RollCall.Proofs.Query.Faults
import RollCall.Proofs.Query.Resolution
import RollCall.Proofs.Block.Table
import RollCall.Proofs.Index.Contents
import RollCall.Proofs.Index.Catalogue
import RollCall.Proofs.Index.Forecast
import RollCall.Proofs.Index.Convergence
import RollCall.Proofs.Index.Renames
import RollCall.Proofs.Text.Offset
import RollCall.Proofs.Block.Places
import RollCall.Proofs.Block.Owner
import RollCall.Proofs.Block.Walk
import RollCall.Proofs.Block.Layout
import RollCall.Proofs.Block.Writes
import RollCall.Proofs.Block.Readings
import RollCall.Proofs.Vault.Race
import RollCall.Proofs.Block.Selected
import RollCall.Proofs.Vault.Stale
import RollCall.Proofs.Disk.FileSystem
import RollCall.Proofs.Index.Replacement
import RollCall.Proofs.Vault.Temporary
import RollCall.Proofs.Vault.Mounted
import RollCall.Proofs.Command.AllOrNothing
import RollCall.Proofs.Record.Roster
import RollCall.Proofs.Command.Recorded
import RollCall.Proofs.Export.Matrix
import RollCall.Proofs.Block.Form
import RollCall.Proofs.Block.Recognised
import RollCall.Proofs.Config.State
import RollCall.Proofs.Query.MissingFolder
import RollCall.Proofs.Names.Path
import RollCall.Proofs.Index.Folders
import RollCall.Proofs.Names.Argument
import RollCall.Proofs.Disk.Route
import RollCall.Proofs.Disk.Tree
import RollCall.Proofs.Vault.Listing
import RollCall.Proofs.Index.Transpose
import RollCall.Proofs.Query.Cursor
import RollCall.Proofs.Terminal.Style
import RollCall.Proofs.Report.Colors
import RollCall.Proofs.Index.WikiLink
