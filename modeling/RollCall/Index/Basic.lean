import RollCall.Block.Table
import RollCall.Index.Tags
import RollCall.Index.TwoWayMap
import RollCall.Names.Path
import RollCall.Query.Resolution

/-!
# The index of a vault

Everything that queries ask about: the documents, their tags and links, the folders, and the blocks
of each document. The index changes by one document at a time.

`DocumentFacts` are the program's `DocumentUpdate`.
-/

namespace RollCall

/-- What is known about one document. -/
structure DocumentFacts where
  /-- Its tags as they are written. -/
  tags : List String
  /-- The documents it links to. -/
  links : List String
  /-- Its blocks. -/
  blocks : List DocumentBlock

/-- The index of a vault. -/
structure VaultIndex where
  /-- The indexed documents. -/
  documents : NameSet
  /-- Folders that are known apart from the documents in them. -/
  folders : NameSet
  /-- The tags of each document, with those above them. -/
  tags : TwoWayMap
  /-- The link targets of each document. -/
  links : TwoWayMap
  /-- The blocks of each document. -/
  blocks : BlockTable

namespace VaultIndex

/-- The index of a vault without documents. -/
def empty : VaultIndex := ⟨∅, ∅, ∅, ∅, ∅⟩

instance : EmptyCollection VaultIndex := ⟨empty⟩

instance : Inhabited VaultIndex := ⟨empty⟩

/-! ## Changes -/

/-- Indexes a document, in place of what was known about it. -/
def upsert (index : VaultIndex) (path : String) (facts : DocumentFacts) : VaultIndex :=
  { index with
    documents := index.documents.insert path
    tags := index.tags.set path (.ofList (facts.tags.flatMap expandTag))
    links := index.links.set path (.ofList facts.links)
    blocks := index.blocks.set path facts.blocks }

/-- Forgets a document; also tells whether it was indexed. -/
def remove (index : VaultIndex) (path : String) : Bool × VaultIndex :=
  (decide (path ∈ index.documents),
    { index with
      documents := index.documents.erase path
      tags := (index.tags.delete path).2
      links := (index.links.delete path).2
      blocks := index.blocks.delete path })

/-- Moves a document to another path; also tells whether it was indexed. Links of other documents to
the old path stay as they are. -/
def rename (index : VaultIndex) (old new : String) : Bool × VaultIndex :=
  if old ∈ index.documents then
    (true,
      { index with
        documents := (index.documents.erase old).insert new
        tags := (index.tags.rename old new).2
        links := (index.links.rename old new).2
        blocks := index.blocks.rename old new })
  else (false, index)

/-- Makes a folder known that may hold no documents. -/
def addFolder (index : VaultIndex) (folder : String) : VaultIndex :=
  let folder := Path.trimSlashes folder
  if folder = "" then index else { index with folders := index.folders.insert folder }

/-! ## Questions -/

/-- The tags of a document, with those above them. -/
def tagsOf (index : VaultIndex) (path : String) : NameSet :=
  index.tags.get path

/-- The documents with a tag or one below it. -/
def documentsWithTag (index : VaultIndex) (tag : String) : NameSet :=
  index.tags.getInverse (withoutHash tag)

/-- Whether a folder is known or something lies below it. The vault itself always exists. -/
def folderExists (index : VaultIndex) (folder : String) : Bool :=
  let folder := Path.trimSlashes folder
  decide (folder = "") || decide (folder ∈ index.folders) ||
    index.folders.toList.any (Path.isUnder folder) ||
    index.documents.toList.any (Path.isUnder folder)

/-- The documents below a folder, at any depth. -/
def documentsUnder (index : VaultIndex) (folder : String) : NameSet :=
  let folder := Path.trimSlashes folder
  if folder = "" then index.documents else index.documents.filter (Path.isUnder folder)

/-- The path in the text of a link, which a name to show and a heading may follow. -/
def linkPath (link : String) : String :=
  let path := (link.toList.takeWhile (· ≠ '|')).takeWhile (· ≠ '#')
  String.ofList (Text.trim path)

/-- The document that the text of a link means: the one at that path, the one with the extension
added, or else the first one with that name in any folder. -/
def linkTarget? (index : VaultIndex) (link : String) : Option String :=
  let path := linkPath link
  if path = "" then none
  else if path ∈ index.documents then some path
  else
    let file := Path.withExtension path
    if file ∈ index.documents then some file
    else index.documents.toList.find? fun d => Text.endsWith ('/' :: file.toList) d.toList

/-- The documents that a document links to, and those that link to it. -/
def neighbours (index : VaultIndex) (path : String) : Neighbours :=
  ⟨index.links.get path, index.links.getInverse path⟩

/-- The known folders and those that documents lie in. -/
def knownFolders (index : VaultIndex) : NameSet :=
  index.folders.insertAll (index.documents.toList.flatMap Path.ancestors)

/-- The questions that queries ask. -/
def lookup (index : VaultIndex) : Lookup where
  documentsWithTag := index.documentsWithTag
  folderExists := index.folderExists
  documentsUnder := index.documentsUnder
  linkTarget? := index.linkTarget?
  neighbours := index.neighbours
  knownFolders := index.knownFolders.toList

/-- The documents that a query selects. -/
def resolve (index : VaultIndex) (query : Query) : Except ResolveError NameSet :=
  index.lookup.resolve query

end VaultIndex

end RollCall
