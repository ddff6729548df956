import RollCall.Vault.Storage

/-!
# Vaults in memory

A vault whose documents are values. It keeps its own tags and links, and remembers every write.

This is the program's `MemoryHost`.
-/

namespace RollCall

/-- A vault in memory. -/
structure MemoryVault where
  /-- The texts of the documents. -/
  texts : NameMap String
  /-- Folders apart from those that documents lie in. -/
  folders : NameSet
  /-- The tags of documents, as they are written. -/
  tags : NameMap (List String)
  /-- The link targets of documents. -/
  links : NameMap (List String)
  /-- The writes in order, each with its path and text. -/
  writes : List (String × String)

namespace MemoryVault

/-- The vault without documents. -/
def empty : MemoryVault := ⟨∅, ∅, ∅, ∅, []⟩

instance : EmptyCollection MemoryVault := ⟨empty⟩

instance : Inhabited MemoryVault := ⟨empty⟩

/-- The vault with a document put in, which does not count as a write. -/
def insertDocument (vault : MemoryVault) (path text : String) : MemoryVault :=
  { vault with texts := vault.texts.insert path text }

/-- The vault without a document and without its tags and links; also gives the text it had. -/
def removeDocument (vault : MemoryVault) (path : String) : Option String × MemoryVault :=
  (vault.texts.find? path,
    { vault with
      texts := vault.texts.erase path
      tags := vault.tags.erase path
      links := vault.links.erase path })

/-- The vault with a folder that need not hold any document. -/
def addFolder (vault : MemoryVault) (folder : String) : MemoryVault :=
  let folder := Path.trimSlashes folder
  if folder = "" then vault else { vault with folders := vault.folders.insert folder }

/-- The vault with other tags and links for a document. -/
def annotate (vault : MemoryVault) (path : String) (tags links : List String) : MemoryVault :=
  { vault with
    tags := vault.tags.insert path tags
    links := vault.links.insert path links }

/-- The folders of the vault and those that documents lie in. -/
def allFolders (vault : MemoryVault) : NameSet :=
  vault.folders.insertAll (vault.texts.keys.toList.flatMap Path.ancestors)

instance : Storage MemoryVault where
  read vault path :=
    match vault.texts.find? path with
    | none => .error (.read path .noDocument)
    | some text => .ok text
  write vault path text :=
    (.ok (), { vault.insertDocument path text with writes := vault.writes ++ [(path, text)] })
  holds vault path := vault.texts.contains path
  documents vault := .ok vault.texts.keys.toList
  folders vault := .ok vault.allFolders.toList

instance : Annotations MemoryVault where
  tags vault path := (vault.tags.find? path).getD []
  links vault path := (vault.links.find? path).getD []

end MemoryVault

end RollCall
