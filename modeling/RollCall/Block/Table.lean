import RollCall.Block.Scan
import RollCall.Names.Map

/-!
# Blocks by document

The blocks of each document of a vault, in the order of the documents.

The table is the program's `CodeblockCache`, and a `DocumentBlock` its `Codeblock`.
-/

namespace RollCall

/-- A block and the document it stands in. -/
structure DocumentBlock where
  /-- The path of the document. -/
  path : String
  /-- The record of the block, or why it has none. -/
  parsed : Except BodyError Record

namespace DocumentBlock

/-- The record of a block that can be read. -/
def record? (block : DocumentBlock) : Option Record :=
  block.parsed.toOption

/-- The block with the given body. -/
def ofBody (path body : String) : DocumentBlock :=
  ⟨path, Record.parse body⟩

/-- The blocks of a document. -/
def scan (path text : String) : List DocumentBlock :=
  (Block.scan text).map fun block => ⟨path, block.parsed⟩

end DocumentBlock

/-- The blocks of each document; a document without blocks is not listed. -/
structure BlockTable where
  /-- The blocks under the path of their document. -/
  byPath : NameMap (List DocumentBlock)

namespace BlockTable

/-- The table without documents. -/
def empty : BlockTable := ⟨∅⟩

instance : EmptyCollection BlockTable := ⟨empty⟩

instance : Inhabited BlockTable := ⟨empty⟩

/-- The blocks of one document. -/
def get (table : BlockTable) (path : String) : List DocumentBlock :=
  (table.byPath.find? path).getD []

/-- The blocks of all documents, in the order of the paths. -/
def all (table : BlockTable) : List DocumentBlock :=
  table.byPath.values.flatten

/-- The table without a document. -/
def delete (table : BlockTable) (path : String) : BlockTable :=
  ⟨table.byPath.erase path⟩

/-- The table with other blocks for a document. -/
def set (table : BlockTable) (path : String) (blocks : List DocumentBlock) : BlockTable :=
  if blocks.isEmpty then table.delete path else ⟨table.byPath.insert path blocks⟩

/-- The table with the blocks of one document moved to another. -/
def rename (table : BlockTable) (old new : String) : BlockTable :=
  match table.byPath.find? old with
  | none => table
  | some blocks =>
    ⟨(table.byPath.erase old).insert new (blocks.map fun block => { block with path := new })⟩

/-- Number of documents with blocks. -/
def size (table : BlockTable) : Nat := table.byPath.size

/-- Whether no document has blocks. -/
def isEmpty (table : BlockTable) : Bool := table.byPath.isEmpty

end BlockTable

end RollCall
