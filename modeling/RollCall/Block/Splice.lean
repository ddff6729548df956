import RollCall.Block.Scan

/-!
# Writing records into documents

The block of a record is the first one with the record's date, title and query. Writing a record
replaces its block and copies everything else.

`locate` is the program's `locate_block`; the block that it finds comes with the text around it.
-/

namespace RollCall

/-- No block of a document has the date, the title and the query of a record. -/
structure BlockNotFound where
  /-- The date of the record. -/
  date : Date
  /-- The title of the record. -/
  title : String
  /-- The query of the record in its canonical form. -/
  query : String
deriving DecidableEq

/-- The wording of the fault. -/
def BlockNotFound.message (e : BlockNotFound) : String :=
  s!"no attendance codeblock titled '{e.title}' on {e.date.text} with query '{e.query}'"

/-- The fault that a record has no block. -/
def Record.notFound (target : Record) : BlockNotFound :=
  ⟨target.date, target.title, target.query.render⟩

/-- A block that holds a record. -/
structure Located where
  /-- Where the block stands. -/
  cut : Cut
  /-- The record that it holds. -/
  record : Record

/-- The block and its record, if it can be read and belongs to the target. -/
def Cut.locate? (target : Record) (cut : Cut) : Option Located :=
  match cut.parsed with
  | .error _ => none
  | .ok record => if record.sameHead target then some ⟨cut, record⟩ else none

/-- The block of a record. -/
def locate (text : List Char) (target : Record) : Except BlockNotFound Located :=
  match (Cut.scan text).findSome? (Cut.locate? target) with
  | none => .error target.notFound
  | some located => .ok located

/-- The characters of a block that holds the record. -/
def Record.fenced (record : Record) : List Char :=
  openingFence ++ '\n' :: record.chars ++ closingFence

/-- The text with the target's entries in its block. The block keeps its query text, and nothing
changes if it holds the entries already. A block at the very beginning gets a line feed in front. -/
def spliceChars (text : List Char) (target : Record) : Except BlockNotFound (List Char) :=
  match locate text target with
  | .error error => .error error
  | .ok located =>
    let record := { target with source := located.record.source }
    if record = located.record then .ok text
    else
      let lead := if located.cut.before = [] then ['\n'] else located.cut.before
      .ok (lead ++ record.fenced ++ located.cut.after)

/-- The document text with the target's entries in its block. -/
def splice (text : String) (target : Record) : Except BlockNotFound String :=
  (spliceChars text.toList target).map String.ofList

end RollCall
