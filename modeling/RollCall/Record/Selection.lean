import RollCall.Block.Table

/-!
# Selecting one record

A document may hold several records. A selection names one by its date or title; it has to leave no
choice.

`Selection.pick` is the program's `select_block`.
-/

namespace RollCall

/-- What is asked of one record of a document; a condition that is not set holds always. -/
structure Selection where
  /-- The record has this date. -/
  date? : Option Date
  /-- The record has this title. -/
  title? : Option String
deriving DecidableEq

/-- Why a selection names no record. -/
inductive SelectionError where
  /-- No record satisfies it. -/
  | noBlock (path : String)
  /-- Several records satisfy it. -/
  | severalBlocks (count : Nat) (path : String)
deriving DecidableEq, Repr

/-- The wording of the reason. -/
def SelectionError.message : SelectionError → String
  | noBlock path => s!"no attendance codeblock in '{path}' matches"
  | severalBlocks count path =>
    s!"{count} attendance codeblocks in '{path}' match. Narrow the choice with --date or --title"

namespace Selection

/-- Whether a record satisfies the selection. -/
def accepts (selection : Selection) (record : Record) : Bool :=
  selection.date?.all (record.date = ·) && selection.title?.all (record.title = ·)

/-- The only record among the blocks of a document that satisfies the selection. -/
def pick (selection : Selection) (path : String) (blocks : List DocumentBlock) :
    Except SelectionError Record :=
  match (blocks.filterMap DocumentBlock.record?).filter selection.accepts with
  | [] => .error (.noBlock path)
  | [record] => .ok record
  | records => .error (.severalBlocks records.length path)

end Selection

end RollCall
