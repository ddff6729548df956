import RollCall.Block.Table
import RollCall.Disk.Fault
import RollCall.Index.Basic

/-!
# Where documents are kept

A vault keeps documents as whole texts. `Storage` says what can be done with a place that keeps them,
`Annotations` what else is known about them. Writing gives back the storage even when it fails: a
failed write may leave something behind.

The program calls them `DocumentHost` and `MetadataSource`; `readFacts` is `derive_document`.
-/

namespace RollCall

/-- Why a text could not be read or written. -/
inductive IoCause where
  /-- The disk is at fault. -/
  | disk (fault : DiskFault)
  /-- There is no document with this name. -/
  | noDocument
deriving DecidableEq, Repr

/-- The wording of a cause. -/
def IoCause.message : IoCause → String
  | disk fault => fault.message
  | noDocument => "no such document"

/-- What went wrong in a vault. -/
inductive StorageError where
  /-- A document could not be read. -/
  | read (path : String) (cause : IoCause)
  /-- A document could not be written. -/
  | write (path : String) (cause : IoCause)
  /-- A directory could not be listed. -/
  | list (path : String) (cause : DiskFault)
  /-- The snapshot of tags and links could not be read. -/
  | snapshotRead (path : String) (cause : DiskFault)
  /-- The snapshot of tags and links is not written as it should be. -/
  | snapshotParse (path : String)
deriving DecidableEq, Repr

/-- The wording of what went wrong. -/
def StorageError.message : StorageError → String
  | read path cause => s!"failed to read document '{path}': {cause.message}"
  | write path cause => s!"failed to write document '{path}': {cause.message}"
  | list path cause => s!"failed to list directory '{path}': {cause.message}"
  | snapshotRead path cause =>
    s!"failed to read metadata snapshot '{path}': {cause.message}"
  | snapshotParse path => s!"invalid metadata snapshot '{path}'"

/-- A place that keeps documents. -/
class Storage (σ : Type) where
  /-- The text of a document. -/
  read : σ → String → Except StorageError String
  /-- Writes the text of a document. -/
  write : σ → String → String → Except StorageError Unit × σ
  /-- Whether there is a document with this path. -/
  holds : σ → String → Bool
  /-- The documents, in ascending order. -/
  documents : σ → Except StorageError (List String)
  /-- The folders, in ascending order; they need not hold any document. -/
  folders : σ → Except StorageError (List String)

/-- Tags and links of documents. -/
class Annotations (μ : Type) where
  /-- The tags of a document, as they are written. -/
  tags : μ → String → List String
  /-- The documents that a document links to. -/
  links : μ → String → List String

/-! ## Indexing what is stored -/

/-- What is known about a stored document. -/
def readFacts {σ μ : Type} [Storage σ] [Annotations μ] (vault : σ) (annotations : μ)
    (path : String) : Except StorageError DocumentFacts :=
  match Storage.read vault path with
  | .error error => .error error
  | .ok text =>
    .ok ⟨Annotations.tags annotations path, Annotations.links annotations path,
      DocumentBlock.scan path text⟩

namespace VaultIndex

/-- Indexes a stored document; one that cannot be read is passed over. -/
def readDocument {σ μ : Type} [Storage σ] [Annotations μ] (vault : σ) (annotations : μ)
    (index : VaultIndex) (path : String) : VaultIndex :=
  match readFacts vault annotations path with
  | .error _ => index
  | .ok facts => index.upsert path facts

/-- The index of everything that is stored. -/
def load {σ μ : Type} [Storage σ] [Annotations μ] (vault : σ) (annotations : μ) :
    Except StorageError VaultIndex :=
  match Storage.folders vault with
  | .error error => .error error
  | .ok folders =>
    match Storage.documents vault with
    | .error error => .error error
    | .ok documents =>
      .ok (documents.foldl (readDocument vault annotations) (folders.foldl addFolder ∅))

end VaultIndex

end RollCall
