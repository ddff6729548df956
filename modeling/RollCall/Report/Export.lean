import RollCall.Report.Basic

/-!
# Reports on exports

Where a table of records was written.
-/

namespace RollCall.Report

/-- The report on a table that was written to a file. -/
def ofExport (path : String) (records attendees : Nat) : Report where
  json := .object [("status", .string "success"), ("path", .string path),
    ("records", .number records), ("attendees", .number attendees)]
  text _ := s!"Exported {records} records to {path}\n"

end RollCall.Report
