import RollCall.Disk.Access
import RollCall.Json.Tree
import RollCall.Json.Value
import RollCall.Names.Map
import RollCall.Vault.Storage

/-!
# Snapshots of tags and links

Tags and links of the documents of a vault are found by another program, which leaves them in a
file of JSON text: `documents` holds `tags` and `links` for each path.

This is the program's `MetadataSnapshot`.
-/

namespace RollCall

/-- Tags and links of one document. -/
structure DocumentNotes where
  /-- The tags, as they are written. -/
  tags : List String
  /-- The paths of the documents that it links to. -/
  links : List String
deriving DecidableEq, Repr

/-- Tags and links of the documents of a vault. -/
structure Snapshot where
  /-- What is known about each document. -/
  documents : NameMap DocumentNotes

namespace Snapshot

/-- The snapshot of a vault about which nothing is known. -/
def empty : Snapshot := ⟨∅⟩

instance : Annotations Snapshot where
  tags snapshot path := ((snapshot.documents.find? path).map DocumentNotes.tags).getD []
  links snapshot path := ((snapshot.documents.find? path).map DocumentNotes.links).getD []

/-! ## The written form -/

/-- The texts of a field, which may be missing. -/
def texts? : Option JsonTree → Option (List String)
  | none => some []
  | some tree => tree.texts?

/-- What a tree says about one document. -/
def notes? (tree : JsonTree) : Option DocumentNotes := do
  match ← tree.struct? ["tags", "links"] with
  | [tags, links] => return ⟨← texts? tags, ← texts? links⟩
  | _ => none

/-- What a tree says about the documents. What is said last about a path holds. -/
def documents? : Option JsonTree → Option (NameMap DocumentNotes)
  | none => some ∅
  | some tree => do
    let entries ← (← tree.entries?).mapM fun (path, tree) => (notes? tree).map fun n => (path, n)
    return entries.foldl (fun documents (path, notes) => documents.insert path notes) ∅

/-- The snapshot that a text spells. -/
def parse? (text : String) : Option Snapshot := do
  match ← (← JsonTree.parse? text).struct? ["documents"] with
  | [documents] => return ⟨← documents? documents⟩
  | _ => none

/-- The written form of a snapshot. -/
def json (snapshot : Snapshot) : Json :=
  .object [("documents", .object (snapshot.documents.toList.map fun (path, notes) =>
    (path, .object [("tags", .strings notes.tags), ("links", .strings notes.links)])))]

/-- The snapshot at a path of a disk; nothing is known if there is no file. -/
def load (disk : Disk) (path : String) : Except StorageError Snapshot :=
  match disk.read path with
  | .error fault => if fault = .notFound then .ok empty else .error (.snapshotRead path fault)
  | .ok text =>
    match parse? text with
    | none => .error (.snapshotParse path)
    | some snapshot => .ok snapshot

end Snapshot

end RollCall
