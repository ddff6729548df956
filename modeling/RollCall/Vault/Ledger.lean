import RollCall.Block.Splice
import RollCall.Vault.Storage

/-!
# Reading and writing the records of stored documents

A write reads the document anew, replaces the block of the record and writes the whole text back.
Nothing is locked: of two writes at the same time one may be lost.

These are the calls of a `CodeblockStore` and its `PersistenceError`: `readBlocks` is `read_blocks`,
`setState` is `set_state`, and `readText` is the `read_existing` behind all of them.
-/

namespace RollCall

/-- Why a record could not be read or written. -/
inductive LedgerError where
  /-- There is no document with this path. -/
  | documentNotFound (path : String)
  /-- The document has no block for the record. -/
  | blockNotFound (error : BlockNotFound)
  /-- The vault failed. -/
  | storage (error : StorageError)
deriving DecidableEq

/-- The wording of the reason. -/
def LedgerError.message : LedgerError → String
  | documentNotFound path => s!"document '{path}' does not exist"
  | blockNotFound error => error.message
  | storage error => error.message

namespace Ledger

variable {σ : Type} [Storage σ]

/-- The text of a document, which has to exist. -/
def readText (vault : σ) (path : String) : Except LedgerError String :=
  if Storage.holds vault path then
    match Storage.read vault path with
    | .error error => .error (.storage error)
    | .ok text => .ok text
  else .error (.documentNotFound path)

/-- The blocks of a document, in order. -/
def readBlocks (vault : σ) (path : String) : Except LedgerError (List DocumentBlock) :=
  match readText vault path with
  | .error error => .error error
  | .ok text => .ok (DocumentBlock.scan path text)

/-- The text that a document has once the record is written into it. -/
def updatedText (vault : σ) (path : String) (target : Record) : Except LedgerError String :=
  match readText vault path with
  | .error error => .error error
  | .ok text =>
    match splice text target with
    | .error error => .error (.blockNotFound error)
    | .ok updated => .ok updated

/-- Writes a record into its block. Nothing is written if the document has no such block. -/
def write (vault : σ) (path : String) (target : Record) : Except LedgerError Unit × σ :=
  match updatedText vault path target with
  | .error error => (.error error, vault)
  | .ok updated =>
    match Storage.write vault path updated with
    | (.error error, vault) => (.error (.storage error), vault)
    | (.ok (), vault) => (.ok (), vault)

/-- Records the state of one attendee and writes the record; gives the record as written. -/
def setState (vault : σ) (path : String) (target : Record) (link state note : String) :
    Except LedgerError Record × σ :=
  let record := target.withState link state note
  match write vault path record with
  | (.error error, vault) => (.error error, vault)
  | (.ok (), vault) => (.ok record, vault)

end Ledger

end RollCall
