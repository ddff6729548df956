import RollCall.Calendar.Date
import RollCall.Json.Value
import RollCall.Names.Set
import RollCall.Query.Json
import RollCall.Record.Entries

/-!
# Attendance records

A record belongs to a day and a title. Its query selects who should attend, its entries say what has
been recorded. Date, title and query together name the record within a document.

A record is what the program calls an `Attendance`; `sameHead` is `eq_ignoring_attendance`.
-/

namespace RollCall

/-- One attendance record. -/
structure Record where
  /-- The day of the record. -/
  date : Date
  /-- A free title. -/
  title : String
  /-- Who should attend. -/
  query : Query
  /-- The query as its author wrote it. -/
  source : String
  /-- What has been recorded. -/
  entries : Entries
deriving DecidableEq

/-- The line of an entry. -/
def Entry.chars (entry : Entry) : List Char :=
  ['-', ' ', '[', '['] ++ entry.link.toList ++ [']', ']', ',', ' ', '"'] ++ entry.state.toList ++
    ['"', ',', ' ', '"'] ++ entry.note.toList ++ ['"', '\n']

namespace Record

/-- A record without entries, whose query is written in its canonical form. -/
def new (date : Date) (title : String) (query : Query) : Record :=
  ⟨date, title, query, query.render, ∅⟩

/-- The record with the state of one attendee changed. -/
def withState (record : Record) (link state note : String) : Record :=
  { record with entries := record.entries.set ⟨link, state, note⟩ }

/-- Whether two records have the same date, title and query. -/
def sameHead (a b : Record) : Bool :=
  decide (a.date = b.date ∧ a.title = b.title ∧ a.query = b.query)

/-- The recorded entries, then a blank entry for each resolved document without one, in ascending
order. -/
def effectiveEntries (record : Record) (resolved : NameSet) : List Entry :=
  record.entries.toList ++
    ((resolved.filter fun path => !record.entries.contains path).toList.map Entry.blank)

/-- The characters of the written form: three header lines and a line for each entry. -/
def chars (record : Record) : List Char :=
  "date: ".toList ++ record.date.chars ++ "\ntitle: ".toList ++ record.title.toList ++
    "\nquery: ".toList ++ record.source.toList ++ '\n' :: record.entries.toList.flatMap Entry.chars

/-- The written form, which stands between the fences of a block. -/
def serialize (record : Record) : String :=
  String.ofList record.chars

/-- The JSON form. -/
def json (record : Record) : Json :=
  .object [("date", .string record.date.text), ("title", .string record.title),
    ("query", record.query.json), ("query_source", .string record.source),
    ("attendances", .array (record.entries.toList.map fun entry =>
      .object [("link", .string entry.link), ("state", .string entry.state),
        ("note", .string entry.note)]))]

end Record

end RollCall
