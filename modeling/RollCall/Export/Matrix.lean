import RollCall.Calendar.Timestamp
import RollCall.Index.Basic
import RollCall.Record.Search

/-!
# Attendance matrices

The records of a vault as a table: a column for each attendee of any record, a row for each record,
and in each cell the state of the attendee in that record.

`ofRecords` and `text` together are the program's `export_tsv`, which makes the table and writes it
down at once; `fileName` is `default_export_file_name`.
-/

namespace RollCall

/-- A table of states. -/
structure Matrix where
  /-- The attendees, in ascending order of their paths. -/
  attendees : List String
  /-- For each record its date and the state of each attendee. -/
  rows : List (Date × List String)
deriving DecidableEq

namespace Matrix

/-- The entries of each record for the documents that its query selects; the first query that cannot
be resolved is reported. -/
def effective (lookup : Lookup) : List Record → Except ResolveError (List (Date × List Entry))
  | [] => .ok []
  | record :: records =>
    match lookup.resolve record.query with
    | .error error => .error error
    | .ok resolved =>
      match effective lookup records with
      | .error error => .error error
      | .ok rows => .ok ((record.date, record.effectiveEntries resolved) :: rows)

/-- The state of an attendee among some entries, empty if there is none. -/
def cell (entries : List Entry) (attendee : String) : String :=
  ((entries.find? (·.link = attendee)).map Entry.state).getD ""

/-- The table of some records. -/
def ofRecords (lookup : Lookup) (records : List Record) : Except ResolveError Matrix :=
  match effective lookup records with
  | .error error => .error error
  | .ok rows =>
    let attendees := (NameSet.ofList (rows.flatMap fun row => row.2.map Entry.link)).toList
    .ok ⟨attendees, rows.map fun (date, entries) => (date, attendees.map (cell entries))⟩

/-- The header: the word `date` and the names of the attendees, with tabs between them. -/
def header (matrix : Matrix) : List Char :=
  "date\t".toList ++
    Text.join '\t' (matrix.attendees.map fun path => (Path.displayName path).toList) ++ ['\n']

/-- A row: each cell is followed by a tab. -/
def row (date : Date) (cells : List String) : List Char :=
  date.chars ++ '\t' :: cells.flatMap (fun cell => cell.toList ++ ['\t']) ++ ['\n']

/-- The table between fences. -/
def text (matrix : Matrix) : String :=
  String.ofList ("```tsv\n".toList ++ matrix.header ++
    matrix.rows.flatMap (fun (date, cells) => row date cells) ++ "```".toList)

/-- The name of a file for a table that is made at the given moment. -/
def fileName (now : Timestamp) : String :=
  s!"Attendance-{now.fileText}.tsv.md"

end Matrix

end RollCall
