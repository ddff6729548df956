import RollCall.Disk.Access
import RollCall.Vault.Storage

/-!
# Vaults on a disk

A vault that is a folder of a disk. Its documents are the files below the folder whose name ends in
`.md`; what has a name that starts with a dot, or lies in a folder that has one, is no part of it.
A document is written to a temporary file first, which then takes its place, so that it never holds
a part of a text.

This is the program's `FsVault`.
-/

namespace RollCall

/-- A vault in a folder of a disk. -/
structure FolderVault where
  /-- The disk. -/
  disk : Disk
  /-- The path of the folder. -/
  root : String
deriving DecidableEq

namespace FolderVault

/-- The path on the disk of a document or a folder of the vault. -/
def fullPath (vault : FolderVault) (path : String) : String :=
  (Route.parts path).foldl Route.join vault.root

/-- Whether a path on the disk is named like a document. -/
def isDocumentPath (path : String) : Bool :=
  Route.extension? path = some ['m', 'd']

/-- The path of the file that is written before it takes the place of a document. -/
def temporaryPath (path : String) : String :=
  Route.withExtension "md.tmp" path

/-- Whether the name that a path on the disk ends in starts with a dot. -/
def isHidden (path : String) : Bool :=
  (Route.fileName? path).any fun name => name.head? = some '.'

/-- The path below the vault of a place in it. -/
def relativePath (place : Place) : String :=
  String.ofList (Text.join '/' (place.map String.toList))

/-- The path below the vault of what a path on the disk leads to, if it starts like the path of the
vault. -/
def relativePath? (vault : FolderVault) (full : String) : Option String :=
  (Disk.below? (Route.components vault.root) (Route.components full)).map relativePath

/-- What is found at an entry of a folder, with its path on the disk: nothing if it is hidden, and a
folder together with what is found in it. -/
def visit (within : String → Except StorageError (List (String × Node))) (folder : String) :
    String × Node → Except StorageError (List (String × Node))
  | (name, node) =>
    let path := Route.join folder name
    if isHidden path then .ok []
    else
      match node with
      | .file content => .ok [(path, .file content)]
      | .folder => (within path).map ((path, .folder) :: ·)

/-- What is found in a folder and in the folders in it, `depth` levels deep. -/
def walk (disk : Disk) : Nat → String → Except StorageError (List (String × Node))
  | 0, _ => .ok []
  | depth + 1, folder =>
    match disk.readFolder folder with
    | .error fault => .error (.list folder fault)
    | .ok entries => (entries.mapM (visit (walk disk depth) folder)).map List.flatten

/-- Whether what a path on the disk leads to is a document. -/
def isDocument : String × Node → Bool
  | (path, .file _) => isDocumentPath path
  | (_, .folder) => false

/-- Whether a path on the disk leads to a folder. -/
def isFolder : String × Node → Bool
  | (_, .file _) => false
  | (_, .folder) => true

/-- The paths below the vault of what is chosen from all that lies in it, in ascending order. -/
def list (vault : FolderVault) (choose : String × Node → Bool) : Except StorageError (List String) :=
  (walk vault.disk (vault.disk.depth + 1) vault.root).map fun found =>
    (NameSet.ofList ((found.filter choose).filterMap fun (path, _) => vault.relativePath? path)).toList

/-- Writes a text to the temporary file and lets it take the place of the document. When the second
step fails, the temporary file stays. -/
def replace (vault : FolderVault) (path text : String) : Except StorageError Unit × FolderVault :=
  let full := vault.fullPath path
  let temporary := temporaryPath full
  match vault.disk.write temporary text with
  | .error fault => (.error (.write path (.disk fault)), vault)
  | .ok written =>
    match written.moveFile temporary full with
    | .error fault => (.error (.write path (.disk fault)), { vault with disk := written })
    | .ok moved => (.ok (), { vault with disk := moved })

instance : Storage FolderVault where
  read vault path :=
    match vault.disk.read (vault.fullPath path) with
    | .error fault => .error (.read path (.disk fault))
    | .ok text => .ok text
  write := replace
  holds vault path :=
    isDocumentPath (vault.fullPath path) && vault.disk.isFile (vault.fullPath path)
  documents vault := vault.list isDocument
  folders vault := vault.list isFolder

end FolderVault

end RollCall
