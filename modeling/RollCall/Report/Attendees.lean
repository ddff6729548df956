import RollCall.Config.State
import RollCall.Names.Path
import RollCall.Record.Basic
import RollCall.Report.Basic
import RollCall.Text.Bytes

/-!
# Reports on attendees

The attendees of a block with their states and notes, and a state that was recorded.
-/

namespace RollCall.Report

/-- An attendee as JSON; whether the state was recorded is told apart from what it is. -/
def attendeeJson (recorded : Bool) (entry : Entry) : Json :=
  .object [("link", .string entry.link), ("name", .string (Path.displayName entry.link)),
    ("markdown", .string (Path.markdown entry.link)), ("state", .string entry.state),
    ("note", .string entry.note), ("explicit", .bool recorded)]

/-- The width of the cell for a state. Control sequences are not shown, but they count as characters of
the cell, so it is wider by their length. -/
def stateWidth (states : List AttendanceState) (colors : Bool) (key : String) : Nat :=
  12 + Text.bytes (AttendanceState.showKey states colors key).toList -
    Text.bytes (AttendanceState.showKey states false key).toList

/-- The columns of the table of attendees. -/
def attendeeRow (name state note : String) : String :=
  s!"{left 24 name} {left 12 state} {note}"

/-- The line of an attendee. -/
def attendeeLine (states : List AttendanceState) (colors : Bool) (entry : Entry) : String :=
  let state := left (stateWidth states colors entry.state)
    (AttendanceState.showKey states colors entry.state)
  attendeeRow (cut 24 (Path.displayName entry.link)) state entry.note ++ "\n"

/-- The lines of some attendees and the heads of their columns. -/
def attendeeTable (states : List AttendanceState) (colors : Bool) (entries : List Entry) : String :=
  if entries.isEmpty then "No attendees.\n"
  else
    heading colors (attendeeRow "Attendee" "State" "Note") ++
      String.join (entries.map (attendeeLine states colors))

/-- The report on the attendees of a record, recorded ones and others. -/
def ofAttendees (states : List AttendanceState) (path : String) (record : Record)
    (entries : List Entry) : Report where
  json := .object [("path", .string path), ("date", .string record.date.text),
    ("title", .string record.title), ("query", .string record.source),
    ("attendees", .array (entries.map fun entry =>
      attendeeJson (record.entries.contains entry.link) entry))]
  text colors :=
    Style.bold.paint colors s!"{record.date.text} {record.title}" ++ "\n" ++
      s!"Query: {record.source}\n\n" ++ attendeeTable states colors entries

/-- The report on a state that was recorded. -/
def ofRecorded (states : List AttendanceState) (path : String) (record : Record) (entry : Entry) :
    Report where
  json := .object [("status", .string "success"), ("path", .string path),
    ("date", .string record.date.text), ("title", .string record.title),
    ("attendee", attendeeJson true entry)]
  text colors :=
    let name := Path.displayName entry.link
    let state := AttendanceState.showKey states colors entry.state
    s!"{name} is {state} at {record.title} ({record.date.text})\n"

end RollCall.Report
