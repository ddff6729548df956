import RollCall.Query.Parser
import RollCall.Record.Basic

/-!
# Block bodies

What stands between the fences of a block: lines for the date, the title and the query, and a line
for each entry. Only the lines that are recognised count. When a header line is repeated the last one
wins; faults in entries are reported before faults in the header.

`Record.ofBody` is the program's `parse_body`, `Entry.read` its `parse_entry`, and `BodyError` its
`HeaderError`.
-/

namespace RollCall

/-! ## Faults -/

/-- What is wrong with the line of an entry. -/
inductive EntryFault where
  /-- The link is not opened. -/
  | linkNotOpened
  /-- The link is not closed. -/
  | linkNotClosed
  /-- Two fields are not separated. -/
  | noComma
  /-- The state is not quoted. -/
  | stateNotQuoted
  /-- The state has no closing quote. -/
  | stateNotClosed
  /-- The note is not quoted. -/
  | noteNotQuoted
deriving DecidableEq, Repr

/-- The wording of what is wrong. -/
def EntryFault.message : EntryFault → String
  | linkNotOpened => "expected '[[' to open the link"
  | linkNotClosed => "expected ']]' to close the link"
  | noComma => "expected ',' between fields"
  | stateNotQuoted => "expected a quoted state"
  | stateNotClosed => "unterminated state"
  | noteNotQuoted => "expected a quoted note"

/-- A header line. -/
inductive Header where
  /-- The day of the record. -/
  | date
  /-- The title of the record. -/
  | title
  /-- The query of the record. -/
  | query
deriving DecidableEq, Repr

/-- The name of a header line. -/
def Header.name : Header → String
  | date => "date"
  | title => "title"
  | query => "query"

/-- Why a body is no record. -/
inductive BodyError where
  /-- A header line is missing. -/
  | missingHeader (header : Header)
  /-- The date cannot be read. -/
  | invalidDate (text : String)
  /-- The query cannot be read. -/
  | invalidQuery (error : SyntaxError)
  /-- The line of an entry cannot be read. -/
  | malformedEntry (line : String) (fault : EntryFault)
deriving DecidableEq, Repr

/-- The wording of the reason. -/
def BodyError.message : BodyError → String
  | missingHeader header =>
    s!"the elements 'date:', 'title:' and 'query:' are required, '{header.name}:' is missing"
  | invalidDate text => s!"invalid date '{text}', expected YYYY-MM-DD"
  | invalidQuery error => s!"invalid query: {error.message}"
  | malformedEntry line fault => s!"malformed entry '{line}': {fault.message}"

/-! ## Entries -/

namespace Entry

/-- The next field of an entry: what follows the comma, without blanks. -/
def nextField (text : List Char) : Except EntryFault (List Char) :=
  match Text.after? [','] text with
  | none => .error .noComma
  | some field => .ok (Text.trim field)

/-- The note, which is the last field: everything between its first quote and the last one. -/
def readNote (text : List Char) : Except EntryFault (List Char) :=
  match (Text.after? ['"'] text).bind (Text.before? ['"']) with
  | none => .error .noteNotQuoted
  | some note => .ok note

/-- The state and the note, which may both be absent. -/
def readState (text : List Char) : Except EntryFault (List Char × List Char) := do
  if text = [] then
    return ([], [])
  let field ← nextField text
  match Text.after? ['"'] field with
  | none => throw .stateNotQuoted
  | some quoted =>
    match Text.cut? ['"'] quoted with
    | none => throw .stateNotClosed
    | some (state, rest) =>
      let rest := Text.trimStart rest
      if rest = [] then
        return (state, [])
      let field ← nextField rest
      let note ← readNote field
      return (state, note)

/-- The entry that a text spells: a link, a link and a state, or a link, a state and a note. -/
def read (text : List Char) : Except EntryFault Entry :=
  match Text.after? ['[', '['] text with
  | none => .error .linkNotOpened
  | some inner =>
    match Text.cut? [']', ']'] inner with
    | none => .error .linkNotClosed
    | some (link, rest) => do
      let (state, note) ← readState (Text.trimStart rest)
      return ⟨String.ofList link, String.ofList state, String.ofList note⟩

end Entry

/-! ## Lines -/

/-- What a line of a body is for. -/
inductive BodyLine where
  /-- A header line and its value. -/
  | header (header : Header) (value : List Char)
  /-- The line of an entry and what follows its bullet. -/
  | entry (line text : List Char)
  /-- Any other line. -/
  | other
deriving DecidableEq

namespace BodyLine

/-- What follows the bullet of an entry. -/
def afterBullet? (line : List Char) : Option (List Char) :=
  (Text.after? ['-'] line).or (Text.after? ['*'] line)

/-- What a line without blanks around it is for. -/
def classify (line : List Char) : BodyLine :=
  match Text.after? "date:".toList line with
  | some value => .header .date (Text.trim value)
  | none =>
    match Text.after? "title:".toList line with
    | some value => .header .title (Text.trim value)
    | none =>
      match Text.after? "query:".toList line with
      | some value => .header .query (Text.trim value)
      | none =>
        match afterBullet? line with
        | some text => .entry line (Text.trim text)
        | none => .other

/-- The lines of a body. Blanks around a line do not count, so neither does the kind of line end. -/
def ofBody (body : List Char) : List BodyLine :=
  (Text.split '\n' body).map fun line => classify (Text.trim line)

/-- The value of a header line of the given kind. -/
def value? (wanted : Header) : BodyLine → Option (List Char)
  | header h value => if h = wanted then some value else none
  | _ => none

/-- The line of an entry and what follows its bullet. -/
def entry? : BodyLine → Option (List Char × List Char)
  | entry line text => some (line, text)
  | _ => none

end BodyLine

/-! ## Bodies -/

namespace Record

/-- The value of the last header line of a kind. -/
def headerValue (header : Header) (lines : List BodyLine) : Except BodyError (List Char) :=
  match (lines.filterMap (BodyLine.value? header)).getLast? with
  | none => .error (.missingHeader header)
  | some value => .ok value

/-- The entries of a body, in the order of their lines; the first malformed one is reported. -/
def readEntries : List (List Char × List Char) → Except BodyError (List Entry)
  | [] => .ok []
  | (line, text) :: lines =>
    match Entry.read text with
    | .error fault => .error (.malformedEntry (String.ofList line) fault)
    | .ok entry =>
      match readEntries lines with
      | .error error => .error error
      | .ok entries => .ok (entry :: entries)

/-- The record that a body describes. -/
def ofBody (body : List Char) : Except BodyError Record := do
  let lines := BodyLine.ofBody body
  let entries ← readEntries (lines.filterMap BodyLine.entry?)
  let date ← headerValue .date lines
  let title ← headerValue .title lines
  let source ← headerValue .query lines
  let date ←
    match Date.read? .tight date with
    | none => throw (.invalidDate (String.ofList date))
    | some date => pure date
  let query ←
    match Query.parse (String.ofList source) with
    | .error error => throw (.invalidQuery error)
    | .ok query => pure query
  return ⟨date, String.ofList title, query, String.ofList source, Entries.ofList entries⟩

/-- The record that a body describes. -/
def parse (body : String) : Except BodyError Record :=
  ofBody body.toList

end Record

end RollCall
