import RollCall.Block.Table
import RollCall.Report.Basic

/-!
# Reports on blocks

A line for each block that can be read, then one for each that cannot, so that it can be mended.
-/

namespace RollCall.Report

/-- The record of a block as JSON, if it has one. -/
def blockJson? (block : DocumentBlock) : Option Json :=
  match block.parsed with
  | .error _ => none
  | .ok record =>
    some (.object [("path", .string block.path), ("date", .string record.date.text),
      ("title", .string record.title), ("query", .string record.source),
      ("entries", .number record.entries.size)])

/-- Why a block has no record as JSON, if it has none. -/
def faultJson? (block : DocumentBlock) : Option Json :=
  match block.parsed with
  | .ok _ => none
  | .error error =>
    some (.object [("path", .string block.path), ("error", .string error.message)])

/-- The columns of the table of blocks. -/
def blockRow (date title entries query document : String) : String :=
  s!"{left 10 date}  {left 24 title} {right 7 entries}  {left 24 query} {document}"

/-- The line of a block that has a record. -/
def blockLine? (block : DocumentBlock) : Option String :=
  match block.parsed with
  | .error _ => none
  | .ok record =>
    some (blockRow record.date.text (cut 24 record.title) (toString record.entries.size)
      (cut 24 record.source) block.path ++ "\n")

/-- The line of a block that has none. -/
def faultLine? (colors : Bool) (block : DocumentBlock) : Option String :=
  match block.parsed with
  | .ok _ => none
  | .error error => some (Style.red.paint colors s!"{block.path}: {error.message}" ++ "\n")

/-- The report on some blocks. -/
def ofBlocks (blocks : List DocumentBlock) : Report where
  json := .object [("blocks", .array (blocks.filterMap blockJson?)),
    ("errors", .array (blocks.filterMap faultJson?))]
  text colors :=
    if blocks.isEmpty then "No attendance codeblocks found.\n"
    else
      heading colors (blockRow "Date" "Title" "Entries" "Query" "Document") ++
        String.join (blocks.filterMap blockLine?) ++ String.join (blocks.filterMap (faultLine? colors))

end RollCall.Report
